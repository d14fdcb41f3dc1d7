import OrderedChoice.Json.Coding
import OrderedChoice.Proofs.Json.Library
import OrderedChoice.Proofs.Json.Nesting
import OrderedChoice.Value.Equality

/-!
# Values through JSON

What is written for a value is read back as the value, as long as it holds no floating-point number
and its text does not nest too deeply.  Any standard library and any coding that tags values with
the names of their constructors will do.

* `Value.Storable` says which values can be stored;
* `Value.IsTagged` says how values are written and what trees they are read from, a law for each
  constructor;
* `Storable.exists_stored`: a storable value is written as a text with a tree from which an equal
  value is read, by induction on the value;
* `Value.write_reads_back`: the text is read back as an equal value, in whatever order the entries
  of maps were written;
* `Value.isTagged_coding`: the coding of this project is such a coding.
-/

namespace OrderedChoice

open Json

namespace Value

/-- The values that JSON can hold: without floating-point numbers, and with distinct keys. -/
inductive Storable : Value → Prop
  | integer (i : Int64) : Storable (integer i)
  | string (s : String) : Storable (string s)
  | boolean (b : Bool) : Storable (boolean b)
  | null : Storable null
  | list {items : List Value} (h : ∀ v ∈ items, Storable v) : Storable (list items)
  | map {entries : List (String × Value)} (hkeys : (entries.map Prod.fst).Nodup)
      (h : ∀ e ∈ entries, Storable e.2) : Storable (map entries)

/-- A value is written as an object whose only member has the name of the constructor, but `null` as
this name alone, and it is read from such trees.  To open an object or an array takes room.  The
entries of a map are written in any order, and it is left open in which order they are read. -/
structure IsTagged (L : Library) (C : Coding Value) : Prop where
  write_integer : ∀ i,
    C.write (integer i) = some (L.object [((integer i).tag, L.integer i.toInt)])
  write_string : ∀ s, C.write (string s) = some (L.object [((string s).tag, L.string s)])
  write_boolean : ∀ b, C.write (boolean b) = some (L.object [((boolean b).tag, L.bool b)])
  write_null : C.write null = some (L.string null.tag)
  write_list : ∀ items, C.write (list items) =
    (items.mapM C.write).map fun texts => L.object [((list items).tag, L.array texts)]
  write_map : ∀ entries, ∃ es : List (String × Value), es.Perm entries ∧ C.write (map entries) =
    ((es.map Prod.snd).mapM C.write).map fun texts =>
      L.object [((map entries).tag, L.object ((es.map Prod.fst).zip texts))]
  visit_integer : ∀ {room : Nat} {key : List JsonUnit} {x : JsonNumber} {i : Int64},
    decodeText key = some (integer i).tag → x.integer? = some i.toInt →
    C.visit (room + 1) (.object [(key, .number x)]) = some (integer i)
  visit_string : ∀ {room : Nat} {key us : List JsonUnit} {s : String},
    decodeText key = some (string s).tag → decodeText us = some s →
    C.visit (room + 1) (.object [(key, .string us)]) = some (string s)
  visit_boolean : ∀ {room : Nat} {key : List JsonUnit} {b : Bool},
    decodeText key = some (boolean b).tag →
    C.visit (room + 1) (.object [(key, .bool b)]) = some (boolean b)
  visit_null : ∀ {room : Nat} {us : List JsonUnit}, decodeText us = some null.tag →
    C.visit room (.string us) = some null
  visit_list : ∀ {room : Nat} {key : List JsonUnit} {js : List Json} {items : List Value},
    decodeText key = some (list items).tag →
    List.Forall₂ (fun j v => C.visit room j = some v) js items →
    C.visit (room + 2) (.object [(key, .array js)]) = some (list items)
  visit_map : ∀ {room : Nat} {key : List JsonUnit} {ms : List (List JsonUnit × Json)}
    {entries : List (String × Value)}, decodeText key = some (map entries).tag →
    List.Forall₂ (fun m e => decodeText m.1 = some e.1 ∧ C.visit room m.2 = some e.2) ms entries →
    (entries.map Prod.fst).Nodup →
    ∃ es : List (String × Value), es.Perm entries ∧
      C.visit (room + 2) (.object [(key, .object ms)]) = some (map es)

/-! ### Trees of values -/

/-- The tree is derived for a text that is written for the value, and is read as an equal value
wherever there is room for its depth. -/
structure IsStored (C : Coding Value) (v : Value) (text : String) (j : Json) : Prop where
  write_eq : C.write v = some text
  spells : Spells text.toList (.value j)
  visit : ∀ room, j.nesting ≤ room → ∃ w, C.visit room j = some w ∧ equal v w = true

variable {L : Library} {C : Coding Value}

/-- A value is stored as its tag with what its content is stored as. -/
theorem exists_stored_of_content (hL : L.IsStandard) {v : Value} {content : String} {j : Json}
    (hwrite : C.write v = some (L.object [(v.tag, content)]))
    (hcontent : Spells content.toList (.value j))
    (hvisit : ∀ key room, decodeText key = some v.tag → j.nesting ≤ room →
      ∃ w, C.visit (room + 1) (.object [(key, j)]) = some w ∧ equal v w = true) :
    ∃ text tree, IsStored C v text tree := by
  have hmember : List.Forall₂ (fun m j => Spells m.2.toList (.value j)) [(v.tag, content)] [j] :=
    .cons hcontent .nil
  obtain ⟨keys, hkeys, hspells⟩ := hL.spells_object hmember
  obtain ⟨key, rfl⟩ : ∃ key, keys = [key] :=
    List.length_eq_one_iff.1 (by simpa using congrArg List.length hkeys)
  refine ⟨_, _, hwrite, hspells, fun room hroom => ?_⟩
  have hkey : decodeText key = some v.tag := by simpa using hkeys
  simp only [List.zip_cons_cons, List.zip_nil_left, nesting, nestingOfMembers, Nat.max_zero]
    at hroom
  obtain ⟨room, rfl⟩ : ∃ r, room = r + 1 := ⟨room - 1, by omega⟩
  exact hvisit key room hkey (by omega)

/-- What is stored one by one is stored together. -/
theorem exists_stored_items {items : List Value}
    (h : ∀ v ∈ items, ∃ text j, IsStored C v text j) :
    ∃ texts js, items.mapM C.write = some texts ∧ js.length = items.length ∧
      List.Forall₂ (fun t j => Spells t.toList (.value j)) texts js ∧
      ∀ room, nestingOfItems js ≤ room → ∃ ws,
        List.Forall₂ (fun j w => C.visit room j = some w) js ws ∧
        List.Forall₂ (fun v w => equal v w = true) items ws := by
  induction items with
  | nil => exact ⟨[], [], rfl, rfl, .nil, fun _ _ => ⟨[], .nil, .nil⟩⟩
  | cons v vs ih =>
    obtain ⟨⟨text, j, hv⟩, hvs⟩ := List.forall_mem_cons.1 h
    obtain ⟨texts, js, hwrite, hlength, hspells, hvisit⟩ := ih hvs
    refine ⟨text :: texts, j :: js, ?_, congrArg Nat.succ hlength, .cons hv.spells hspells,
      fun room hroom => ?_⟩
    · simp [List.mapM_cons, hv.write_eq, hwrite]
    · simp only [nestingOfItems, max_le_iff] at hroom
      obtain ⟨w, hw, hequal⟩ := hv.visit room hroom.1
      obtain ⟨ws, hws, hequals⟩ := hvisit room hroom.2
      exact ⟨w :: ws, .cons hw hws, .cons hequal hequals⟩

theorem equalItems_of_forall₂ {vs ws : List Value}
    (h : List.Forall₂ (fun v w => equal v w = true) vs ws) : equalItems vs ws = true := by
  induction h with
  | nil => rfl
  | cons h _ ih => simp [equalItems, h, ih]

theorem exists_stored_list (hL : L.IsStandard) (hC : IsTagged L C) {items : List Value}
    (h : ∀ v ∈ items, ∃ text j, IsStored C v text j) :
    ∃ text j, IsStored C (list items) text j := by
  obtain ⟨texts, js, hwrite, -, hspells, hvisit⟩ := exists_stored_items h
  refine exists_stored_of_content hL (by rw [hC.write_list, hwrite]; rfl)
    (hL.spells_array hspells) fun key room hkey hroom => ?_
  simp only [nesting] at hroom
  obtain ⟨room, rfl⟩ : ∃ r, room = r + 1 := ⟨room - 1, by omega⟩
  obtain ⟨ws, hws, hequal⟩ := hvisit room (by omega)
  exact ⟨list ws, hC.visit_list hkey hws, equalItems_of_forall₂ hequal⟩

/-! ### Maps -/

section

variable {names : List String} {keys : List (List JsonUnit)} {js : List Json}

/-- The least room in which all members are read is that for the values. -/
theorem nestingOfItems_le_zip (hlength : js.length ≤ keys.length) :
    nestingOfItems js ≤ nestingOfMembers (keys.zip js) := by
  induction js generalizing keys with
  | nil => exact Nat.zero_le _
  | cons j js ih =>
    cases keys with
    | nil => simp at hlength
    | cons key keys =>
      have hle := ih (Nat.le_of_succ_le_succ hlength)
      simp only [List.zip_cons_cons, nestingOfMembers, nestingOfItems]
      omega

/-- Members are spelled as their values are. -/
theorem forall₂_zip_texts {texts : List String} (hlength : names.length = texts.length)
    (h : List.Forall₂ (fun t j => Spells t.toList (.value j)) texts js) :
    List.Forall₂ (fun m j => Spells m.2.toList (.value j)) (names.zip texts) js := by
  induction h generalizing names with
  | nil => simp
  | cons hj _ ih =>
    cases names with
    | nil => simp at hlength
    | cons name names => exact .cons hj (ih (Nat.succ.inj hlength))

/-- Members whose names are read and whose values are read are read as entries. -/
theorem forall₂_zip {ws : List Value} {P : Json → Value → Prop}
    (hkeys : keys.map decodeText = names.map some) (h : List.Forall₂ P js ws) :
    List.Forall₂ (fun m e => decodeText m.1 = some e.1 ∧ P m.2 e.2) (keys.zip js)
      (names.zip ws) := by
  induction names generalizing keys js ws with
  | nil =>
    obtain rfl := List.map_eq_nil_iff.1 hkeys
    exact .nil
  | cons name names ih =>
    obtain ⟨key, keys, rfl, hkey, hkeys⟩ := List.map_eq_cons_iff.1 hkeys
    cases h with
    | nil => exact .nil
    | cons hj hjs => exact .cons ⟨hkey, hj⟩ (ih hkeys hjs)

end

/-- Entries with equal values under the same keys. -/
theorem equalEntries_of_mem {xs ys : List (String × Value)} (hkeys : (ys.map Prod.fst).Nodup)
    (h : ∀ x ∈ xs, ∃ y, (x.1, y) ∈ ys ∧ equal x.2 y = true) : equalEntries xs ys = true := by
  induction xs with
  | nil => rfl
  | cons x xs ih =>
    obtain ⟨⟨y, hy, hequal⟩, hxs⟩ := List.forall_mem_cons.1 h
    have hlookup := lookup_of_mem hkeys hy
    simp [equalEntries, hlookup, hequal, ih hxs]

/-- Each entry finds the value that has been read in its place. -/
theorem exists_mem_zip {es : List (String × Value)} {ws : List Value}
    (h : List.Forall₂ (fun v w => equal v w = true) (es.map Prod.snd) ws) :
    ∀ x ∈ es, ∃ y, (x.1, y) ∈ (es.map Prod.fst).zip ws ∧ equal x.2 y = true := by
  induction es generalizing ws with
  | nil => simp
  | cons e es ih =>
    obtain ⟨w, ws', he, hes, rfl⟩ := List.forall₂_cons_left_iff.1 h
    intro x hx
    rcases List.mem_cons.1 hx with rfl | hx
    · exact ⟨w, List.mem_cons_self, he⟩
    · obtain ⟨y, hy, hequal⟩ := ih hes x hx
      exact ⟨y, List.mem_cons_of_mem _ hy, hequal⟩

/-- What has been read under the keys of a map is a map equal to it, in whatever order. -/
theorem equal_map_of_forall₂ {entries es rs : List (String × Value)} {ws : List Value}
    (hkeys : (entries.map Prod.fst).Nodup) (hes : es.Perm entries)
    (hws : List.Forall₂ (fun v w => equal v w = true) (es.map Prod.snd) ws)
    (hrs : rs.Perm ((es.map Prod.fst).zip ws)) : equal (map entries) (map rs) = true := by
  have hlength : ws.length = es.length := by simpa using hws.length_eq.symm
  have hfst : (rs.map Prod.fst).Perm (entries.map Prod.fst) := by
    have hzip := hrs.map Prod.fst
    rw [List.map_fst_zip (by simp [hlength])] at hzip
    exact hzip.trans (hes.map Prod.fst)
  have hcount : entries.length = rs.length := by simpa using hfst.length_eq.symm
  have hfound : ∀ x ∈ entries, ∃ y, (x.1, y) ∈ rs ∧ equal x.2 y = true := by
    intro x hx
    obtain ⟨y, hy, hequal⟩ := exists_mem_zip hws x (hes.mem_iff.2 hx)
    exact ⟨y, hrs.mem_iff.2 hy, hequal⟩
  simp only [equal, Bool.and_eq_true, beq_iff_eq]
  exact ⟨hcount, equalEntries_of_mem (hfst.nodup_iff.2 hkeys) hfound⟩

theorem exists_stored_map (hL : L.IsStandard) (hC : IsTagged L C)
    {entries : List (String × Value)} (hkeys : (entries.map Prod.fst).Nodup)
    (h : ∀ e ∈ entries, ∃ text j, IsStored C e.2 text j) :
    ∃ text j, IsStored C (map entries) text j := by
  obtain ⟨es, hes, hwritten⟩ := hC.write_map entries
  have hvalues : ∀ v ∈ es.map Prod.snd, ∃ text j, IsStored C v text j := by
    rintro v hv
    obtain ⟨e, he, rfl⟩ := List.mem_map.1 hv
    exact h e (hes.mem_iff.1 he)
  obtain ⟨texts, js, hwrite, hlength, hspells, hvisit⟩ := exists_stored_items hvalues
  have htexts : (es.map Prod.fst).length = texts.length := by
    simpa [hspells.length_eq] using hlength.symm
  obtain ⟨keys, hnames, hobject⟩ := hL.spells_object (forall₂_zip_texts htexts hspells)
  have hdecode : keys.map decodeText = (es.map Prod.fst).map some := by
    have hfst := congrArg (List.map some) (List.map_fst_zip (le_of_eq htexts))
    rw [List.map_map] at hfst
    exact hnames.trans hfst
  refine exists_stored_of_content hL (by rw [hwritten, hwrite]; rfl) hobject
    fun key room hkey hroom => ?_
  have hle : nestingOfItems js ≤ nestingOfMembers (keys.zip js) := by
    refine nestingOfItems_le_zip (le_of_eq ?_)
    simpa [hlength] using (congrArg List.length hdecode).symm
  simp only [nesting] at hroom
  obtain ⟨room, rfl⟩ : ∃ r, room = r + 1 := ⟨room - 1, by omega⟩
  obtain ⟨ws, hws, hequal⟩ := hvisit room (by omega)
  have hnodup : (((es.map Prod.fst).zip ws).map Prod.fst).Nodup := by
    rw [List.map_fst_zip (by simpa using (le_of_eq hequal.length_eq))]
    exact ((hes.map Prod.fst).nodup_iff).2 hkeys
  have htag : decodeText key = some (map ((es.map Prod.fst).zip ws)).tag := hkey
  obtain ⟨rs, hrs, hmap⟩ := hC.visit_map htag (forall₂_zip hdecode hws) hnodup
  exact ⟨map rs, hmap, equal_map_of_forall₂ hkeys hes hequal hrs⟩

/-! ### Reading back -/

/-- **Every storable value is stored** as a text with a tree. -/
theorem Storable.exists_stored (hL : L.IsStandard) (hC : IsTagged L C) {v : Value}
    (h : Storable v) : ∃ text j, IsStored C v text j := by
  induction h with
  | integer i =>
    have hlow : Int64.minValue.toInt ≤ i.toInt := i.minValue_le_toInt
    have hhigh : i.toInt < UInt64.size := lt_of_le_of_lt i.toInt_le (by decide)
    obtain ⟨x, hx, hi⟩ := hL.spells_integer hlow hhigh
    exact exists_stored_of_content hL (hC.write_integer i) hx fun key room hkey _ =>
      ⟨_, hC.visit_integer hkey hi, by simp [equal]⟩
  | string s =>
    obtain ⟨us, hus, hs⟩ := hL.spells_string s
    exact exists_stored_of_content hL (hC.write_string s) hus fun key room hkey _ =>
      ⟨_, hC.visit_string hkey hs, by simp [equal]⟩
  | boolean b =>
    exact exists_stored_of_content hL (hC.write_boolean b) (hL.spells_bool b)
      fun key room hkey _ => ⟨_, hC.visit_boolean hkey, by simp [equal]⟩
  | null =>
    obtain ⟨us, hus, hname⟩ := hL.spells_string Value.null.tag
    exact ⟨_, _, hC.write_null, hus, fun room _ => ⟨_, hC.visit_null hname, rfl⟩⟩
  | list h ih => exact exists_stored_list hL hC ih
  | map hkeys h ih => exact exists_stored_map hL hC hkeys ih

/-- **A value is written, and read back as an equal value** from what is written for it, unless the
text nests more than 127 arrays and objects.  So it is with any library and in whatever order the
entries of maps are written and read. -/
theorem write_reads_back (hL : L.IsStandard) (hC : IsTagged L C) {v : Value} (hv : Storable v) :
    ∃ text, C.write v = some text ∧
      (textNesting text ≤ 127 → ∃ w, L.fromText C.visit text = .ok w ∧ equal v w = true) := by
  obtain ⟨text, j, hstored⟩ := hv.exists_stored hL hC
  refine ⟨text, hstored.write_eq, fun hnesting => ?_⟩
  rw [textNesting_of_spells hstored.spells] at hnesting
  obtain ⟨w, hw, hequal⟩ := hstored.visit nestingRoom hnesting
  exact ⟨w, hL.fromText_iff.2 ⟨j, spells_element hstored.spells, hw⟩, hequal⟩

/-! ### The coding of this project -/

theorem mapM_write_coding (items : List Value) :
    items.mapM coding.write = some (itemsToJson items) := by
  induction items with
  | nil => rfl
  | cons v vs ih =>
    rw [List.mapM_cons, ih]
    rfl

theorem entriesToJson_eq (entries : List (String × Value)) :
    entriesToJson entries = (entries.map Prod.fst).zip (itemsToJson (entries.map Prod.snd)) := by
  induction entries with
  | nil => rfl
  | cons e es ih => simp [entriesToJson, itemsToJson, ih]

theorem ofItems?_of_forall₂ {room : Nat} {js : List Json} {items : List Value}
    (h : List.Forall₂ (fun j v => ofJson? room j = some v) js items) :
    ofItems? room js = some items := by
  induction h with
  | nil => rfl
  | cons hj _ ih => simp [ofItems?, hj, ih]

theorem ofMembers?_of_forall₂ {room : Nat} {ms : List (List JsonUnit × Json)}
    {entries acc : List (String × Value)}
    (h : List.Forall₂ (fun m e => decodeText m.1 = some e.1 ∧ ofJson? room m.2 = some e.2) ms
      entries) (hkeys : ((acc ++ entries).map Prod.fst).Nodup) :
    ofMembers? room acc ms = some (acc ++ entries) := by
  induction h generalizing acc with
  | nil => simp [ofMembers?]
  | @cons m e ms es he _ ih =>
    have hnew : e.1 ∉ acc.map Prod.fst := by
      rw [List.map_append, List.nodup_append] at hkeys
      exact fun hmem => hkeys.2.2 e.1 hmem e.1 (by simp) rfl
    have hset : setEntry e.1 e.2 acc = acc ++ [e] := setEntry_of_not_mem hnew e.2
    have hrest : ofMembers? room (acc ++ [e]) ms = some ((acc ++ [e]) ++ es) :=
      ih (by simpa using hkeys)
    simpa [ofMembers?, he.1, he.2, hset] using hrest

theorem isTagged_coding : IsTagged .bundled coding where
  write_integer _ := rfl
  write_string _ := rfl
  write_boolean _ := rfl
  write_null := rfl
  write_list items := by
    rw [mapM_write_coding]
    rfl
  write_map entries := by
    refine ⟨entries, .refl _, ?_⟩
    rw [mapM_write_coding, Option.map_some, ← entriesToJson_eq]
    rfl
  visit_integer hkey hi := by simp [coding, ofJson?, hkey, tag, ofTagged?, hi, toInt64?_eq_some_iff]
  visit_string hkey hs := by simp [coding, ofJson?, hkey, tag, ofTagged?, hs]
  visit_boolean hkey := by simp [coding, ofJson?, hkey, tag, ofTagged?]
  visit_null hname := by simpa [coding, ofJson?, tag] using hname
  visit_list hkey hitems := by
    have hread := ofItems?_of_forall₂ hitems
    simp [coding, ofJson?, hkey, tag, ofTagged?, hread]
  visit_map {room key ms entries} hkey hentries hkeys := by
    have hread : ofMembers? room [] ms = some ([] ++ entries) :=
      ofMembers?_of_forall₂ hentries (by simpa using hkeys)
    refine ⟨entries, .refl _, ?_⟩
    simp [coding, ofJson?, hkey, tag, ofTagged?, hread]

/-- Entries with the name of `null` as a string, the least integer, and a key that needs escapes. -/
def storedEntries : List (String × Value) :=
  [("items", list [string "Null", null, integer Int64.minValue]), ("\x01\"😀", map [])]

/-- The entries are written and read back. -/
theorem write_reads_back_entries :
    Library.bundled.IsStandard ∧ IsTagged .bundled coding ∧ Storable (map storedEntries) ∧
      textNesting (map storedEntries).toJson ≤ 127 ∧
      ∃ w, Library.bundled.fromText coding.visit (map storedEntries).toJson = .ok w ∧
        equal (map storedEntries) w = true := by
  have hitems : Storable (list [string "Null", null, integer Int64.minValue]) := by
    refine .list ?_
    simp only [List.forall_mem_cons]
    exact ⟨.string _, .null, .integer _, nofun⟩
  have hv : Storable (map storedEntries) := by
    refine .map (by decide) ?_
    simp only [storedEntries, List.forall_mem_cons]
    exact ⟨hitems, .map .nil nofun, nofun⟩
  have hnesting : textNesting (map storedEntries).toJson ≤ 127 := by decide +kernel
  obtain ⟨text, htext, hread⟩ := write_reads_back isStandard_bundled isTagged_coding hv
  cases htext
  exact ⟨isStandard_bundled, isTagged_coding, hv, hnesting, hread hnesting⟩

end Value

end OrderedChoice
