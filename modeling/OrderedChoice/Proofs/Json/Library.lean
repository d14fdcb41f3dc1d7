import Mathlib.Data.List.Forall2
import OrderedChoice.Json.Library
import OrderedChoice.Proofs.Json.Soundness

/-!
# What is relied on of a library for JSON

A library reads the texts of the grammar and no others, from bytes as from memory, and what it
writes is derived by the grammar for a tree that stands for it.

* `Library.IsStandard` says so of any library;
* `exists_string` and `exists_number`: strings and integers as this project writes them;
* `isStandard_bundled`: the library of this project is such a library.
-/

namespace OrderedChoice.Json

/-- A library that reads and writes JSON as it is standardised.  Of a string and an integer that are
written, only what they stand for is told, and not how they are spelled. -/
structure Library.IsStandard (L : Library) : Prop where
  fromText_iff : ∀ {α : Type} {visit : Visitor α} {text : String} {a : α},
    L.fromText visit text = .ok a ↔
      ∃ j, Spells text.toList (.element j) ∧ visit nestingRoom j = some a
  /-- A file is read by the bytes of its text. -/
  fromBytes_iff : ∀ {α : Type} {visit : Visitor α} {text : String} {a : α},
    L.fromBytes visit text.toUTF8 = .ok a ↔
      ∃ j, Spells text.toList (.element j) ∧ visit nestingRoom j = some a
  spells_null : Spells L.null.toList (.value .null)
  spells_bool : ∀ b, Spells (L.bool b).toList (.value (.bool b))
  /-- Integers of 64 bits are written as such, with a sign or without. -/
  spells_integer : ∀ {i : Int}, Int64.minValue.toInt ≤ i → i < UInt64.size →
    ∃ x, Spells (L.integer i).toList (.value (.number x)) ∧ x.integer? = some i
  spells_string : ∀ s, ∃ us, Spells (L.string s).toList (.value (.string us)) ∧
    decodeText us = some s
  spells_array : ∀ {items : List String} {js : List Json},
    List.Forall₂ (fun t j => Spells t.toList (.value j)) items js →
    Spells (L.array items).toList (.value (.array js))
  spells_object : ∀ {members : List (String × String)} {js : List Json},
    List.Forall₂ (fun m j => Spells m.2.toList (.value j)) members js →
    ∃ keys : List (List JsonUnit), keys.map decodeText = members.map (fun m => some m.1) ∧
      Spells (L.object members).toList (.value (.object (keys.zip js)))

/-! ### Parts of texts -/

theorem spells_element {cs : List Char} {j : Json} (h : Spells cs (.value j)) :
    Spells cs (.element j) := by
  have helement := Spells.element areBlanks_nil h areBlanks_nil
  rwa [List.nil_append, List.append_nil] at helement

theorem spells_member {key cs : List Char} {us : List JsonUnit} {j : Json}
    (hkey : SpellsString key us) (h : Spells cs (.value j)) :
    Spells (key ++ ':' :: cs) (.member (us, j)) :=
  Spells.member areBlanks_nil hkey areBlanks_nil (spells_element h)

/-! ### Strings -/

/-- Below the surrogates, an escape stands for a character by itself. -/
theorem decodeUnits_escape {n : Nat} (hn : n < 0xD800) (us : List JsonUnit) :
    decodeUnits (.escape n :: us) = (decodeUnits us).map (Char.ofNat n :: ·) := by
  conv_lhs => unfold decodeUnits
  rw [if_neg (by omega), if_neg (by omega)]

/-- A character is written as one unit that stands for it. -/
theorem exists_unit (c : Char) : ∃ u, SpellsUnit (jsonChar c) u ∧
    ∀ us, decodeUnits (u :: us) = (decodeUnits us).map (c :: ·) := by
  have hletter : ∀ {e d : Char}, escaped? e = some d → ∃ u, SpellsUnit ['\\', e] u ∧
      ∀ us, decodeUnits (u :: us) = (decodeUnits us).map (d :: ·) :=
    fun he => ⟨.char _, .letter he, fun _ => rfl⟩
  unfold jsonChar
  split_ifs with hquote hslash hbackspace hfeed hnewline hreturn htab hcontrol
  · obtain rfl := beq_iff_eq.1 hquote
    exact hletter rfl
  · obtain rfl := beq_iff_eq.1 hslash
    exact hletter rfl
  · obtain rfl := beq_iff_eq.1 hbackspace
    exact hletter rfl
  · obtain rfl := beq_iff_eq.1 hfeed
    exact hletter rfl
  · obtain rfl := beq_iff_eq.1 hnewline
    exact hletter rfl
  · obtain rfl := beq_iff_eq.1 hreturn
    exact hletter rfl
  · obtain rfl := beq_iff_eq.1 htab
    exact hletter rfl
  · have hhex : ∀ n < 32, Json.hexNumber? '0' '0' (Nat.digitChar (n / 16))
        (Nat.digitChar (n % 16)) = some n := by decide
    refine ⟨.escape c.toNat, .code (hhex _ hcontrol), fun us => ?_⟩
    rw [decodeUnits_escape (by omega), Char.ofNat_toNat]
  · exact ⟨.char c, .plain (Nat.not_lt.1 hcontrol) (by simpa using hquote)
      (by simpa using hslash), fun _ => rfl⟩

/-- The text of a string, between its quotes, stands for the string. -/
theorem exists_units (s : List Char) : ∃ us, SpellsUnits (s.flatMap jsonChar) us ∧
    decodeUnits us = some s := by
  induction s with
  | nil => exact ⟨[], .nil, rfl⟩
  | cons c s ih =>
    obtain ⟨u, hu, hdecode⟩ := exists_unit c
    obtain ⟨us, hus, hs⟩ := ih
    exact ⟨u :: us, .cons hu hus, by rw [hdecode, hs]; rfl⟩

theorem exists_string (s : String) : ∃ us, SpellsString (jsonString s).toList us ∧
    decodeText us = some s := by
  obtain ⟨us, hus, hs⟩ := exists_units s.toList
  refine ⟨us, ?_, by simp [decodeText, hs]⟩
  rw [jsonString, String.toList_ofList]
  exact .quoted hus

/-! ### Integers -/

theorem ofDigits_eq (ds : List Nat) : JsonNumber.ofDigits ds = Nat.ofDigits 10 ds.reverse := by
  rw [Nat.ofDigits_eq_foldr, List.foldr_reverse]
  simp [JsonNumber.ofDigits, Nat.add_comm]

theorem head?_natDigits {n : Nat} (hn : 0 < n) : (natDigits n).head? ≠ some '0' := by
  induction n using Nat.strongRecOn with
  | ind n ih =>
    rcases Nat.lt_or_ge n 10 with h | h
    · have hdigit : ∀ n < 10, 0 < n → Nat.digitChar n ≠ '0' := by decide
      simpa [natDigits_of_lt h] using hdigit n h hn
    · rw [natDigits_of_le h, List.head?_append_of_ne_nil _ (natDigits_ne_nil (n / 10))]
      exact ih (n / 10) (by omega) (by omega)

/-- A number is written without a zero at its front, unless it is zero. -/
theorem exists_digits (n : Nat) : ∃ ds, AreDigits (natDigits n) ds ∧
    (ds.head? = some 0 → ds = [0]) ∧ JsonNumber.ofDigits ds = n := by
  obtain ⟨ds, hds, hn⟩ := readNat?_eq_some_iff.1 (readNat?_natDigits n)
  refine ⟨ds, hds, fun hzero => ?_, by rw [ofDigits_eq, hn]⟩
  have hhead : (natDigits n).head? = some '0' := by
    rw [hds.eq_map, List.head?_map, hzero]
    rfl
  obtain rfl : n = 0 := Nat.eq_zero_of_not_pos fun hpos => head?_natDigits hpos hhead
  have hlength : ds.length = 1 := by simpa [natDigits] using congrArg List.length hds.eq_map.symm
  obtain ⟨d, rfl⟩ := List.length_eq_one_iff.1 hlength
  simpa using hzero

theorem exists_number {i : Int} (hlow : Int64.minValue.toInt ≤ i) (hhigh : i < UInt64.size) :
    ∃ x, SpellsNumber (intDigits i) x ∧ x.integer? = some i := by
  cases i with
  | ofNat n =>
    obtain ⟨ds, hds, hzero, hn⟩ := exists_digits n
    have hlt : n < UInt64.size := Int.ofNat_lt.1 hhigh
    refine ⟨_, .ofDigits false hds hzero, ?_⟩
    simp [JsonNumber.integer?, JsonNumber.isPlain, hn, hlt]
  | negSucc n =>
    rw [Int.negSucc_eq] at hlow
    obtain ⟨ds, hds, hzero, hn⟩ := exists_digits (n + 1)
    refine ⟨_, .ofDigits true hds hzero, ?_⟩
    have hmin : Int64.minValue.toInt = -9223372036854775808 := rfl
    simp [JsonNumber.integer?, JsonNumber.isPlain, hn]
    omega

/-! ### Arrays and objects -/

theorem spells_items {items : List String} {js : List Json}
    (h : List.Forall₂ (fun t j => Spells t.toList (.value j)) items js) (hne : items ≠ []) :
    Spells (",".intercalate items).toList (.elements js) := by
  induction h with
  | nil => exact absurd rfl hne
  | @cons t j ts js ht hts ih =>
    cases hts with
    | nil => simpa using Spells.lastElement (spells_element ht)
    | @cons t' j' ts' js' ht' hts' =>
      simpa [String.intercalate_cons_cons] using
        Spells.elements (spells_element ht) (ih (List.cons_ne_nil t' ts'))

theorem spells_jsonArray {items : List String} {js : List Json}
    (h : List.Forall₂ (fun t j => Spells t.toList (.value j)) items js) :
    Spells (jsonArray items).toList (.value (.array js)) := by
  by_cases hne : items = []
  · subst hne
    cases h
    exact .emptyArray areBlanks_nil
  · simpa [jsonArray] using Spells.array (spells_items h hne)

theorem spells_members {members : List (String × String)} {js : List Json}
    (h : List.Forall₂ (fun m j => Spells m.2.toList (.value j)) members js) :
    ∃ keys : List (List JsonUnit), keys.map decodeText = members.map (fun m => some m.1) ∧
      (members ≠ [] →
        Spells (",".intercalate (members.map jsonMember)).toList (.members (keys.zip js))) := by
  induction h with
  | nil => exact ⟨[], rfl, fun hne => absurd rfl hne⟩
  | @cons m j ms js hm hms ih =>
    obtain ⟨us, hus, hname⟩ := exists_string m.1
    obtain ⟨keys, hkeys, hspells⟩ := ih
    have hmember : Spells (jsonMember m).toList (.member (us, j)) := by
      simpa [jsonMember] using spells_member hus hm
    refine ⟨us :: keys, by simp [hname, hkeys], fun _ => ?_⟩
    cases hms with
    | nil => simpa using Spells.lastMember hmember
    | @cons m' j' ms' js' hm' hms' =>
      simpa [String.intercalate_cons_cons] using
        Spells.members hmember (hspells (List.cons_ne_nil m' ms'))

theorem spells_jsonObject {members : List (String × String)} {js : List Json}
    (h : List.Forall₂ (fun m j => Spells m.2.toList (.value j)) members js) :
    ∃ keys : List (List JsonUnit), keys.map decodeText = members.map (fun m => some m.1) ∧
      Spells (jsonObject members).toList (.value (.object (keys.zip js))) := by
  obtain ⟨keys, hkeys, hspells⟩ := spells_members h
  refine ⟨keys, hkeys, ?_⟩
  by_cases hne : members = []
  · subst hne
    obtain rfl : keys = [] := List.map_eq_nil_iff.1 hkeys
    exact .emptyObject areBlanks_nil
  · simpa [jsonObject] using Spells.object (hspells hne)

/-! ### The library of this project -/

theorem readText_iff {α : Type} {visit : Visitor α} {text : String} {a : α} :
    readText visit text = .ok a ↔
      ∃ j, Spells text.toList (.element j) ∧ visit nestingRoom j = some a := by
  unfold readText
  split
  · rename_i b hb
    obtain ⟨j, hread, hvisit⟩ := Option.bind_eq_some_iff.1 hb
    constructor
    · rintro ⟨⟩
      exact ⟨j, read_eq_some_iff.1 hread, hvisit⟩
    · rintro ⟨j', hj, ha⟩
      cases hread.symm.trans (read_eq_some_iff.2 hj)
      cases hvisit.symm.trans ha
      rfl
  · rename_i hnone
    refine ⟨nofun, ?_⟩
    rintro ⟨j, hj, ha⟩
    rw [read_eq_some_iff.2 hj, Option.bind_some, ha] at hnone
    cases hnone

theorem isStandard_bundled : Library.bundled.IsStandard where
  fromText_iff := readText_iff
  fromBytes_iff {_ visit text a} := by
    have hbytes : Library.bundled.fromBytes visit text.toUTF8 = readText visit text :=
      readBytes_toUTF8 visit text
    rw [hbytes]
    exact readText_iff
  spells_null := .null
  spells_bool := .bool
  spells_integer {i} hlow hhigh := by
    obtain ⟨x, hx, hi⟩ := exists_number hlow hhigh
    have hspells : SpellsNumber (intText i).toList x := by rwa [intText, String.toList_ofList]
    exact ⟨x, .number hspells, hi⟩
  spells_string s := by
    obtain ⟨us, hus, hs⟩ := exists_string s
    exact ⟨us, .string hus, hs⟩
  spells_array := spells_jsonArray
  spells_object := spells_jsonObject

end OrderedChoice.Json
