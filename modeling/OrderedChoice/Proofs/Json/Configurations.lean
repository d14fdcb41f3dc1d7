import OrderedChoice.Json.Coding
import OrderedChoice.Loading
import OrderedChoice.Proofs.Json.Library

/-!
# Configurations through JSON

A configuration is what the members of an object say, whatever their order and whatever else the
object holds.  Any standard library and any coding by members will do.

* `valuesOf` gathers the values of all members with a name, and `Gives` says what they come to: a
  default if there are none, otherwise what the only one stands for;
* `Config.IsSaidBy` says which configuration the members of an object stand for, with one equation
  for each kind of member in front;
* `Config.IsByMember` says how configurations are written and read, a law for each kind of member;
* `Config.visit_object_iff`: an object is read as what its members say, by induction on the members;
* `Config.loads_by_content`: what is written for a configuration is read back, and so is any other
  object with the same content, from a text as from a file;
* `Config.isByMember_coding`: the coding of this project is such a coding.
-/

namespace OrderedChoice

open Json

/-! ### Members by their names -/

/-- The values of the members with a name, in their order. -/
def valuesOf (name : String) (ms : List (List JsonUnit × Json)) : List Json :=
  (ms.filter fun m => decodeText m.1 = some name).map Prod.snd

/-- The name of every member is a text: no half of a surrogate pair stands alone in it. -/
def HaveNames (ms : List (List JsonUnit × Json)) : Prop :=
  ∀ m ∈ ms, ∃ name, decodeText m.1 = some name

/-- What the values of a member come to, as the member may be missing and must not be repeated. -/
inductive Gives {α : Type} (P : Json → α → Prop) (absent : α) : List Json → α → Prop
  | missing : Gives P absent [] absent
  | once {j : Json} {a : α} (h : P j a) : Gives P absent [j] a

/-- What has been seen of a member before and after some values of it. -/
inductive Fills {α : Type} (P : Json → α → Prop) : Option α → List Json → Option α → Prop
  | keep (seen : Option α) : Fills P seen [] seen
  | fill {j : Json} {a : α} (h : P j a) : Fills P none [j] (some a)

section

variable {name : String} {key : List JsonUnit} {j : Json} {ms : List (List JsonUnit × Json)}

theorem valuesOf_nil (name : String) : valuesOf name [] = [] := rfl

theorem valuesOf_cons_of_eq (h : decodeText key = some name) :
    valuesOf name ((key, j) :: ms) = j :: valuesOf name ms := by
  simp [valuesOf, h]

theorem valuesOf_cons_of_ne (h : decodeText key ≠ some name) :
    valuesOf name ((key, j) :: ms) = valuesOf name ms := by
  simp [valuesOf, h]

theorem haveNames_nil : HaveNames [] := List.forall_mem_nil _

theorem haveNames_cons_iff :
    HaveNames ((key, j) :: ms) ↔ (∃ name, decodeText key = some name) ∧ HaveNames ms :=
  List.forall_mem_cons

variable {α : Type} {P : Json → α → Prop} {seen seen' : Option α} {js : List Json} {a absent : α}

theorem fills_nil_iff : Fills P seen [] seen' ↔ seen = seen' := by
  constructor
  · rintro ⟨⟩
    rfl
  · rintro rfl
    exact .keep seen

/-- A value is taken only if none has been seen, and no other may follow it. -/
theorem fills_cons_iff :
    Fills P seen (j :: js) seen' ↔ seen = none ∧ ∃ a, P j a ∧ Fills P (some a) js seen' := by
  constructor
  · rintro ⟨⟩
    exact ⟨rfl, _, ‹_›, .keep _⟩
  · rintro ⟨rfl, a, h, ⟨⟩⟩
    exact .fill h

/-- A member that is there is the only one with its name. -/
theorem gives_cons_iff : Gives P absent (j :: js) a ↔ js = [] ∧ P j a := by
  constructor
  · rintro (_ | h)
    exact ⟨rfl, h⟩
  · rintro ⟨rfl, h⟩
    exact .once h

theorem gives_nil_iff : Gives P absent [] a ↔ a = absent := by
  constructor
  · rintro ⟨⟩
    rfl
  · rintro rfl
    exact .missing

theorem gives_iff : Gives P absent js a ↔ ∃ seen, Fills P none js seen ∧ seen.getD absent = a := by
  constructor
  · rintro (_ | h)
    · exact ⟨none, .keep none, rfl⟩
    · exact ⟨some a, .fill h, rfl⟩
  · rintro ⟨_, _ | h, rfl⟩
    · exact .missing
    · exact .once h

end

namespace Config

/-! ### What members stand for -/

/-- The limits that values stand for: none for `null`, and a number of 64 bits for its digits. -/
inductive IsLimit : Json → Option UInt64 → Prop
  | unlimited : IsLimit .null none
  | digits {ds : List Nat} {n : UInt64} (h : Nat.ofDigits 10 ds.reverse = n.toNat) :
      IsLimit (.number ⟨false, ds, [], none⟩) (some n)

/-- The truth values that values stand for. -/
inductive IsFlag : Json → Bool → Prop
  | bool (b : Bool) : IsFlag (.bool b) b

/-- The configuration is what the members with known names come to. -/
structure IsSaidBy (c : Config) (ms : List (List JsonUnit × Json)) : Prop where
  maxDepth : Gives IsLimit none (valuesOf "max_depth" ms) c.maxDepth
  requireFullMatch : Gives IsFlag false (valuesOf "require_full_match" ms) c.requireFullMatch

/-- A number without a sign is one that is written by nothing but digits; `-0` is none. -/
theorem integer?_eq_natCast_iff {x : JsonNumber} {k : Nat} : x.integer? = some (k : Int) ↔
    x = ⟨false, x.whole, [], none⟩ ∧ JsonNumber.ofDigits x.whole = k ∧ k < UInt64.size := by
  obtain ⟨negative, whole, fraction, exponent⟩ := x
  cases negative with
  | false =>
    cases fraction with
    | cons d ds => simp [JsonNumber.integer?, JsonNumber.isPlain]
    | nil =>
      cases exponent with
      | some e => simp [JsonNumber.integer?, JsonNumber.isPlain]
      | none =>
        have hvalue : JsonNumber.integer? ⟨false, whole, [], none⟩ =
            if JsonNumber.ofDigits whole < UInt64.size then some (JsonNumber.ofDigits whole : Int)
            else none := by simp [JsonNumber.integer?, JsonNumber.isPlain]
        rw [hvalue]
        split_ifs with hsize
        · simp only [Option.some.injEq, Int.natCast_inj, true_and]
          exact ⟨fun h => ⟨h, h ▸ hsize⟩, And.left⟩
        · simp only [true_and, false_iff]
          rintro ⟨rfl, h⟩
          exact hsize h
  | true =>
    have hnegative : ∀ m : Nat, 0 < m → -(m : Int) ≠ k := by omega
    simp only [JsonNumber.integer?]
    split_ifs with hplain hrange
    · simp
    · simp [hnegative _ hrange.1]
    · simp

theorem limit?_eq_some_iff {j : Json} {n : Option UInt64} : limit? j = some n ↔ IsLimit j n := by
  constructor
  · intro h
    unfold limit? at h
    split at h
    · cases h
      exact .unlimited
    · split at h
      · rename_i hk
        cases h
        obtain ⟨hx, hds, hsize⟩ := integer?_eq_natCast_iff.1 hk
        rw [hx]
        refine .digits ?_
        rw [← ofDigits_eq, hds, UInt64.toNat_ofNat_of_lt' hsize]
      · cases h
    · cases h
  · rintro (_ | @⟨ds, n, hds⟩)
    · rfl
    · have hinteger : JsonNumber.integer? ⟨false, ds, [], none⟩ = some (n.toNat : Int) :=
        integer?_eq_natCast_iff.2 ⟨rfl, (ofDigits_eq ds).trans hds, n.toNat_lt⟩
      simp [limit?, hinteger]

theorem flag?_eq_some_iff {j : Json} {b : Bool} : flag? j = some b ↔ IsFlag j b := by
  constructor
  · intro h
    cases j with
    | bool b => cases h; exact .bool b
    | _ => cases h
  · rintro ⟨⟩
    rfl

/-! ### Members in front of others -/

section

variable {c : Config} {key : List JsonUnit} {name : String} {j : Json}
  {ms : List (List JsonUnit × Json)}

theorem isSaidBy_nil_iff : c.IsSaidBy [] ↔ c = default := by
  obtain ⟨maxDepth, full⟩ := c
  constructor
  · rintro ⟨hlimit, hflag⟩
    rw [valuesOf_nil, gives_nil_iff] at hlimit hflag
    cases hlimit
    cases hflag
    rfl
  · rintro ⟨⟩
    exact ⟨.missing, .missing⟩

theorem isSaidBy_cons_maxDepth_iff (hkey : decodeText key = some "max_depth") :
    c.IsSaidBy ((key, j) :: ms) ↔ valuesOf "max_depth" ms = [] ∧
      ∃ c' n, IsSaidBy c' ms ∧ IsLimit j n ∧ c = { c' with maxDepth := n } := by
  constructor
  · rintro ⟨hlimit, hflag⟩
    rw [valuesOf_cons_of_eq hkey, gives_cons_iff] at hlimit
    rw [valuesOf_cons_of_ne (by simp [hkey])] at hflag
    obtain ⟨hnone, hlimit⟩ := hlimit
    exact ⟨hnone, { c with maxDepth := none }, c.maxDepth, ⟨hnone ▸ .missing, hflag⟩, hlimit, rfl⟩
  · rintro ⟨hnone, c', n, ⟨-, hflag⟩, hlimit, rfl⟩
    refine ⟨?_, ?_⟩
    · rw [valuesOf_cons_of_eq hkey, hnone]
      exact .once hlimit
    · rwa [valuesOf_cons_of_ne (by simp [hkey])]

theorem isSaidBy_cons_requireFullMatch_iff (hkey : decodeText key = some "require_full_match") :
    c.IsSaidBy ((key, j) :: ms) ↔ valuesOf "require_full_match" ms = [] ∧
      ∃ c' b, IsSaidBy c' ms ∧ IsFlag j b ∧ c = { c' with requireFullMatch := b } := by
  constructor
  · rintro ⟨hlimit, hflag⟩
    rw [valuesOf_cons_of_eq hkey, gives_cons_iff] at hflag
    rw [valuesOf_cons_of_ne (by simp [hkey])] at hlimit
    obtain ⟨hnone, hflag⟩ := hflag
    exact ⟨hnone, { c with requireFullMatch := false }, c.requireFullMatch,
      ⟨hlimit, hnone ▸ .missing⟩, hflag, rfl⟩
  · rintro ⟨hnone, c', b, ⟨hlimit, -⟩, hflag, rfl⟩
    refine ⟨?_, ?_⟩
    · rwa [valuesOf_cons_of_ne (by simp [hkey])]
    · rw [valuesOf_cons_of_eq hkey, hnone]
      exact .once hflag

theorem isSaidBy_cons_other_iff (hkey : decodeText key = some name) (hlimit : name ≠ "max_depth")
    (hflag : name ≠ "require_full_match") : c.IsSaidBy ((key, j) :: ms) ↔ c.IsSaidBy ms := by
  have hlimits : valuesOf "max_depth" ((key, j) :: ms) = valuesOf "max_depth" ms :=
    valuesOf_cons_of_ne (by simpa [hkey] using hlimit)
  have hflags : valuesOf "require_full_match" ((key, j) :: ms) =
      valuesOf "require_full_match" ms := valuesOf_cons_of_ne (by simpa [hkey] using hflag)
  constructor
  · rintro ⟨h, h'⟩
    exact ⟨hlimits ▸ h, hflags ▸ h'⟩
  · rintro ⟨h, h'⟩
    exact ⟨hlimits.symm ▸ h, hflags.symm ▸ h'⟩

end

/-! ### Codings -/

/-- A limit as it is written. -/
def limitText (L : Library) : Option UInt64 → String
  | none => L.null
  | some n => L.integer n.toNat

/-- A configuration is written as the object of its members, and read from objects: each member may
be missing, but must not be repeated, and members with other names are passed over.  To open the
object takes room, to pass over a value does not. -/
structure IsByMember (L : Library) (C : Coding Config) : Prop where
  write_eq : ∀ c, C.write c = some (L.object
    [("max_depth", limitText L c.maxDepth), ("require_full_match", L.bool c.requireFullMatch)])
  visit_nil : ∀ {room : Nat}, C.visit (room + 1) (.object []) = some default
  /-- A name that is no text is not passed over. -/
  visit_unnamed : ∀ {room : Nat} {key : List JsonUnit} {j : Json}
    {ms : List (List JsonUnit × Json)}, decodeText key = none →
    C.visit (room + 1) (.object ((key, j) :: ms)) = none
  visit_other : ∀ {room : Nat} {key : List JsonUnit} {name : String} {j : Json}
    {ms : List (List JsonUnit × Json)}, decodeText key = some name → name ≠ "max_depth" →
    name ≠ "require_full_match" →
    C.visit (room + 1) (.object ((key, j) :: ms)) = C.visit (room + 1) (.object ms)
  visit_maxDepth : ∀ {room : Nat} {key : List JsonUnit} {j : Json}
    {ms : List (List JsonUnit × Json)} {c : Config}, decodeText key = some "max_depth" →
    (C.visit (room + 1) (.object ((key, j) :: ms)) = some c ↔ valuesOf "max_depth" ms = [] ∧
      ∃ c' n, C.visit (room + 1) (.object ms) = some c' ∧ IsLimit j n ∧
        c = { c' with maxDepth := n })
  visit_requireFullMatch : ∀ {room : Nat} {key : List JsonUnit} {j : Json}
    {ms : List (List JsonUnit × Json)} {c : Config}, decodeText key = some "require_full_match" →
    (C.visit (room + 1) (.object ((key, j) :: ms)) = some c ↔
      valuesOf "require_full_match" ms = [] ∧
        ∃ c' b, C.visit (room + 1) (.object ms) = some c' ∧ IsFlag j b ∧
          c = { c' with requireFullMatch := b })

section

variable {L : Library} {C : Coding Config}

/-- **An object is read as what its members say**, if all their names are texts. -/
theorem visit_object_iff (hC : IsByMember L C) {room : Nat} {ms : List (List JsonUnit × Json)}
    {c : Config} :
    C.visit (room + 1) (.object ms) = some c ↔ HaveNames ms ∧ c.IsSaidBy ms := by
  induction ms generalizing c with
  | nil => simp [hC.visit_nil, haveNames_nil, isSaidBy_nil_iff, eq_comm]
  | cons m ms ih =>
    obtain ⟨key, j⟩ := m
    rw [haveNames_cons_iff]
    cases hkey : decodeText key with
    | none => simp [hC.visit_unnamed hkey]
    | some name =>
      simp only [Option.some.injEq, exists_eq', true_and]
      by_cases hlimit : name = "max_depth"
      · subst hlimit
        rw [hC.visit_maxDepth hkey, isSaidBy_cons_maxDepth_iff hkey]
        constructor
        · rintro ⟨hnone, c', n, hc', hn, rfl⟩
          exact ⟨(ih.1 hc').1, hnone, c', n, (ih.1 hc').2, hn, rfl⟩
        · rintro ⟨hnames, hnone, c', n, hc', hn, rfl⟩
          exact ⟨hnone, c', n, ih.2 ⟨hnames, hc'⟩, hn, rfl⟩
      · by_cases hflag : name = "require_full_match"
        · subst hflag
          rw [hC.visit_requireFullMatch hkey, isSaidBy_cons_requireFullMatch_iff hkey]
          constructor
          · rintro ⟨hnone, c', b, hc', hb, rfl⟩
            exact ⟨(ih.1 hc').1, hnone, c', b, (ih.1 hc').2, hb, rfl⟩
          · rintro ⟨hnames, hnone, c', b, hc', hb, rfl⟩
            exact ⟨hnone, c', b, ih.2 ⟨hnames, hc'⟩, hb, rfl⟩
        · rw [hC.visit_other hkey hlimit hflag, isSaidBy_cons_other_iff hkey hlimit hflag, ih]

/-! ### Texts and files -/

variable {text : String} {ms : List (List JsonUnit × Json)} {c : Config}

theorem fromText_eq_ok_iff : fromText L C text = .ok c ↔ L.fromText C.visit text = .ok c := by
  unfold fromText
  cases L.fromText C.visit text <;> simp

/-- The text of an object is read as what its members say. -/
theorem fromText_object_iff (hL : L.IsStandard) (hC : IsByMember L C)
    (h : Spells text.toList (.element (.object ms))) :
    fromText L C text = .ok c ↔ HaveNames ms ∧ c.IsSaidBy ms := by
  rw [fromText_eq_ok_iff, hL.fromText_iff]
  constructor
  · rintro ⟨j, hj, hvisit⟩
    -- the text stands for one tree only
    cases (read_of_spells h).symm.trans (read_of_spells hj)
    exact (visit_object_iff hC).1 hvisit
  · exact fun hc => ⟨_, h, (visit_object_iff hC).2 hc⟩

/-- From a file a text is read as it is by itself. -/
theorem fromFile_or_error (hL : L.IsStandard) (C : Coding Config) (path text : String) :
    (∃ c, fromFile L C path (.ok text.toUTF8) = .ok c ∧ fromText L C text = .ok c) ∨
      ∃ s t, fromFile L C path (.ok text.toUTF8) = .error (.config s) ∧
        fromText L C text = .error (.config t) := by
  have hsame : ∀ c, L.fromBytes C.visit text.toUTF8 = .ok c ↔ L.fromText C.visit text = .ok c :=
    fun c => hL.fromBytes_iff.trans hL.fromText_iff.symm
  unfold fromFile fromText
  cases htext : L.fromText C.visit text with
  | ok c => exact .inl ⟨c, by simp only [(hsame c).2 htext], rfl⟩
  | error t =>
    cases hbytes : L.fromBytes C.visit text.toUTF8 with
    | ok c => cases htext.symm.trans ((hsame c).1 hbytes)
    | error s =>
      refine .inr ⟨"Failed to parse config file: " ++ s, "Failed to parse config: " ++ t, ?_, rfl⟩
      simp only [hbytes]

/-! ### What is written -/

/-- What is written for a limit stands for the limit. -/
theorem exists_limit (hL : L.IsStandard) (n : Option UInt64) :
    ∃ j, Spells (limitText L n).toList (.value j) ∧ IsLimit j n := by
  cases n with
  | none => exact ⟨_, hL.spells_null, .unlimited⟩
  | some n =>
    have hlow : Int64.minValue.toInt ≤ n.toNat := le_trans (by decide) (Int.natCast_nonneg _)
    have hhigh : (n.toNat : Int) < UInt64.size := Int.ofNat_lt.2 n.toNat_lt
    obtain ⟨x, hx, hn⟩ := hL.spells_integer hlow hhigh
    obtain ⟨hplain, hdigits, -⟩ := integer?_eq_natCast_iff.1 hn
    rw [hplain] at hx
    exact ⟨_, hx, .digits ((ofDigits_eq _).symm.trans hdigits)⟩

/-- What is written for a configuration is an object whose members say what it is. -/
theorem exists_object (hL : L.IsStandard) (hC : IsByMember L C) (c : Config) :
    ∃ text ms, C.write c = some text ∧ Spells text.toList (.element (.object ms)) ∧
      HaveNames ms ∧ c.IsSaidBy ms := by
  obtain ⟨j, hj, hlimit⟩ := exists_limit hL c.maxDepth
  have hmembers : List.Forall₂ (fun m j => Spells m.2.toList (.value j))
      [("max_depth", limitText L c.maxDepth), ("require_full_match", L.bool c.requireFullMatch)]
      [j, .bool c.requireFullMatch] := .cons hj (.cons (hL.spells_bool _) .nil)
  obtain ⟨keys, hkeys, hspells⟩ := hL.spells_object hmembers
  obtain ⟨depthKey, _, rfl, hdepth, hrest⟩ := List.map_eq_cons_iff.1 hkeys
  obtain ⟨fullKey, _, rfl, hfull, hnil⟩ := List.map_eq_cons_iff.1 hrest
  obtain rfl := List.map_eq_nil_iff.1 hnil
  refine ⟨_, _, hC.write_eq c, spells_element hspells, ?_, ?_, ?_⟩
  · exact haveNames_cons_iff.2 ⟨⟨_, hdepth⟩, haveNames_cons_iff.2 ⟨⟨_, hfull⟩, haveNames_nil⟩⟩
  · rw [List.zip_cons_cons, List.zip_cons_cons, valuesOf_cons_of_eq hdepth,
      valuesOf_cons_of_ne (by simp [hfull])]
    exact .once hlimit
  · rw [List.zip_cons_cons, List.zip_cons_cons, valuesOf_cons_of_ne (by simp [hdepth]),
      valuesOf_cons_of_eq hfull]
    exact .once (.bool c.requireFullMatch)

/-- **Configurations are loaded by content.**  What is written for a configuration is read back.  Of
any object, whatever the order of its members and whatever else it holds, the configuration is read
that its members say, if all their names are texts.  From a file a text is read as it is by itself,
or it is an error both times. -/
theorem loads_by_content (hL : L.IsStandard) (hC : IsByMember L C) :
    (∀ c : Config, ∃ text, C.write c = some text ∧ fromText L C text = .ok c) ∧
    (∀ (text : String) (ms : List (List JsonUnit × Json)) (c : Config),
      Spells text.toList (.element (.object ms)) →
      (fromText L C text = .ok c ↔ HaveNames ms ∧ c.IsSaidBy ms)) ∧
    ∀ path text, (∃ c, fromFile L C path (.ok text.toUTF8) = .ok c ∧ fromText L C text = .ok c) ∨
      ∃ s t, fromFile L C path (.ok text.toUTF8) = .error (.config s) ∧
        fromText L C text = .error (.config t) := by
  refine ⟨fun c => ?_, fun text ms c => fromText_object_iff hL hC, fromFile_or_error hL C⟩
  obtain ⟨text, ms, hwrite, hspells, hmembers⟩ := exists_object hL hC c
  exact ⟨text, hwrite, (fromText_object_iff hL hC hspells).2 hmembers⟩

end

/-! ### The coding of this project -/

section

variable {key : List JsonUnit} {name : String} {j : Json} {ms : List (List JsonUnit × Json)}
  {limit limit' : Option (Option UInt64)} {flag flag' : Option Bool} {seen : Partly}

theorem ofMembers?_limit_iff (hkey : decodeText key = some "max_depth") :
    ofMembers? ⟨limit, flag⟩ ((key, j) :: ms) = some seen ↔
      limit = none ∧ ∃ n, IsLimit j n ∧ ofMembers? ⟨some n, flag⟩ ms = some seen := by
  cases limit with
  | none => simp [ofMembers?, hkey, Option.bind_eq_some_iff, limit?_eq_some_iff]
  | some limit => simp [ofMembers?, hkey]

theorem ofMembers?_flag_iff (hkey : decodeText key = some "require_full_match") :
    ofMembers? ⟨limit, flag⟩ ((key, j) :: ms) = some seen ↔
      flag = none ∧ ∃ b, IsFlag j b ∧ ofMembers? ⟨limit, some b⟩ ms = some seen := by
  cases flag with
  | none => simp [ofMembers?, hkey, Option.bind_eq_some_iff, flag?_eq_some_iff]
  | some flag => simp [ofMembers?, hkey]

/-- Other members are passed over, whatever their values. -/
theorem ofMembers?_other (hkey : decodeText key = some name) (hlimit : name ≠ "max_depth")
    (hflag : name ≠ "require_full_match") :
    ofMembers? seen ((key, j) :: ms) = ofMembers? seen ms := by
  simp [ofMembers?, hkey, hlimit, hflag]

/-- Members are read one after the other as if those with one name had been gathered before. -/
theorem ofMembers?_eq_some_iff : ofMembers? ⟨limit, flag⟩ ms = some ⟨limit', flag'⟩ ↔
    HaveNames ms ∧ Fills IsLimit limit (valuesOf "max_depth" ms) limit' ∧
      Fills IsFlag flag (valuesOf "require_full_match" ms) flag' := by
  -- on the members, with what has been seen before them free
  induction ms generalizing limit flag with
  | nil => simp [ofMembers?, haveNames_nil, valuesOf, fills_nil_iff]
  | cons m ms ih =>
    obtain ⟨key, j⟩ := m
    rw [haveNames_cons_iff]
    cases hkey : decodeText key with
    | none => simp [ofMembers?, hkey]
    | some name =>
      by_cases hlimit : name = "max_depth"
      · subst hlimit
        rw [ofMembers?_limit_iff hkey, valuesOf_cons_of_eq hkey,
          valuesOf_cons_of_ne (by simp [hkey]), fills_cons_iff]
        constructor
        · rintro ⟨rfl, n, hn, h⟩
          obtain ⟨hnames, hfills, hfills'⟩ := ih.1 h
          exact ⟨⟨⟨_, rfl⟩, hnames⟩, ⟨rfl, n, hn, hfills⟩, hfills'⟩
        · rintro ⟨⟨-, hnames⟩, ⟨rfl, n, hn, hfills⟩, hfills'⟩
          exact ⟨rfl, n, hn, ih.2 ⟨hnames, hfills, hfills'⟩⟩
      · by_cases hflag : name = "require_full_match"
        · subst hflag
          rw [ofMembers?_flag_iff hkey, valuesOf_cons_of_eq hkey,
            valuesOf_cons_of_ne (by simp [hkey]), fills_cons_iff]
          constructor
          · rintro ⟨rfl, b, hb, h⟩
            obtain ⟨hnames, hfills, hfills'⟩ := ih.1 h
            exact ⟨⟨⟨_, rfl⟩, hnames⟩, hfills, rfl, b, hb, hfills'⟩
          · rintro ⟨⟨-, hnames⟩, hfills, rfl, b, hb, hfills'⟩
            exact ⟨rfl, b, hb, ih.2 ⟨hnames, hfills, hfills'⟩⟩
        · rw [ofMembers?_other hkey hlimit hflag, valuesOf_cons_of_ne (by simp [hkey, hlimit]),
            valuesOf_cons_of_ne (by simp [hkey, hflag]), ih]
          simp

end

theorem visit_coding_object_iff {room : Nat} {ms : List (List JsonUnit × Json)} {c : Config} :
    coding.visit (room + 1) (.object ms) = some c ↔ HaveNames ms ∧ c.IsSaidBy ms := by
  obtain ⟨maxDepth, full⟩ := c
  simp only [coding, ofJson?, Option.map_eq_some_iff, mk.injEq]
  constructor
  · rintro ⟨⟨limit, flag⟩, h, hlimit, hflag⟩
    obtain ⟨hnames, hfills, hfills'⟩ := ofMembers?_eq_some_iff.1 h
    exact ⟨hnames, gives_iff.2 ⟨limit, hfills, hlimit⟩, gives_iff.2 ⟨flag, hfills', hflag⟩⟩
  · rintro ⟨hnames, hdepth, hfull⟩
    obtain ⟨limit, hfills, hlimit⟩ := gives_iff.1 hdepth
    obtain ⟨flag, hfills', hflag⟩ := gives_iff.1 hfull
    exact ⟨⟨limit, flag⟩, ofMembers?_eq_some_iff.2 ⟨hnames, hfills, hfills'⟩, hlimit, hflag⟩

theorem isByMember_coding : IsByMember .bundled coding where
  write_eq c := by
    obtain ⟨maxDepth, full⟩ := c
    cases maxDepth <;> rfl
  visit_nil := rfl
  visit_unnamed {room key j ms} hkey := by
    refine Option.eq_none_iff_forall_ne_some.2 fun c hc => ?_
    obtain ⟨⟨name, hname⟩, -⟩ := haveNames_cons_iff.1 (visit_coding_object_iff.1 hc).1
    cases hkey.symm.trans hname
  visit_other {room key name j ms} hkey hlimit hflag := by
    refine Option.ext fun c => ?_
    rw [visit_coding_object_iff, visit_coding_object_iff, haveNames_cons_iff,
      isSaidBy_cons_other_iff hkey hlimit hflag]
    simp [hkey]
  visit_maxDepth {room key j ms c} hkey := by
    simp only [visit_coding_object_iff, haveNames_cons_iff, isSaidBy_cons_maxDepth_iff hkey, hkey]
    constructor
    · rintro ⟨⟨-, hnames⟩, hnone, c', n, hc', hn, rfl⟩
      exact ⟨hnone, c', n, ⟨hnames, hc'⟩, hn, rfl⟩
    · rintro ⟨hnone, c', n, ⟨hnames, hc'⟩, hn, rfl⟩
      exact ⟨⟨⟨_, rfl⟩, hnames⟩, hnone, c', n, hc', hn, rfl⟩
  visit_requireFullMatch {room key j ms c} hkey := by
    simp only [visit_coding_object_iff, haveNames_cons_iff, isSaidBy_cons_requireFullMatch_iff hkey,
      hkey]
    constructor
    · rintro ⟨⟨-, hnames⟩, hnone, c', b, hc', hb, rfl⟩
      exact ⟨hnone, c', b, ⟨hnames, hc'⟩, hb, rfl⟩
    · rintro ⟨hnone, c', b, ⟨hnames, hc'⟩, hb, rfl⟩
      exact ⟨⟨⟨_, rfl⟩, hnames⟩, hnone, c', b, hc', hb, rfl⟩

/-! ### Instances -/

/-- A name that is half of a surrogate pair. -/
def halfName : List JsonUnit := [.escape 0xDC00]

/-- Whether a character stands in a string as it is. -/
def isPlain (c : Char) : Bool := 32 ≤ c.toNat && c != '"' && c != '\\'

theorem spellsUnits_map {cs : List Char} (h : ∀ c ∈ cs, isPlain c = true) :
    SpellsUnits cs (cs.map .char) := by
  induction cs with
  | nil => exact .nil
  | cons c cs ih =>
    obtain ⟨hc, hcs⟩ := List.forall_mem_cons.1 h
    simp only [isPlain, Bool.and_eq_true, decide_eq_true_eq, bne_iff_ne] at hc
    exact .cons (.plain hc.1.1 hc.1.2 hc.2) (ih hcs)

theorem spellsString_map {s : String} (h : s.toList.all isPlain = true) :
    SpellsString ('"' :: (s.toList ++ ['"'])) (s.toList.map .char) :=
  .quoted (spellsUnits_map (List.all_eq_true.1 h))

theorem spells_one : Spells ['1'] (.value (.number ⟨false, [1], [], none⟩)) :=
  .number (.ofDigits false ⟨by decide, by decide, rfl⟩ (by decide))

theorem spells_halfName : SpellsString "\"\\udc00\"".toList halfName :=
  .quoted (.cons (.code rfl) .nil)

/-- An object whose first member is not known and has a name inside that is no text. -/
def ignoredText : String :=
  "\x7b\"x\":[\x7b\"\\udc00\":1\x7d],\"require_full_match\" : true\x7d"

/-- The members of the object. -/
def ignoredMembers : List (List JsonUnit × Json) :=
  [("x".toList.map .char, .array [.object [(halfName, .number ⟨false, [1], [], none⟩)]]),
    ("require_full_match".toList.map .char, .bool true)]

theorem spells_ignoredText : Spells ignoredText.toList (.element (.object ignoredMembers)) := by
  have hblank : AreBlanks [' '] := List.forall_mem_singleton.2 rfl
  have hinner := Spells.object (.lastMember (spells_member spells_halfName spells_one))
  have harray := Spells.array (.lastElement (spells_element hinner))
  have hfirst := spells_member (spellsString_map (s := "x") rfl) harray
  have hsecond := Spells.member areBlanks_nil (spellsString_map (s := "require_full_match") rfl)
    hblank (.element hblank (.bool true) areBlanks_nil)
  exact spells_element (Spells.object (.members hfirst (.lastMember hsecond)))

theorem loads_by_content_ignored :
    Library.bundled.IsStandard ∧ IsByMember .bundled coding ∧
      Spells ignoredText.toList (.element (.object ignoredMembers)) ∧
      fromText .bundled coding ignoredText = .ok ⟨none, true⟩ := by
  have hnames : HaveNames ignoredMembers :=
    haveNames_cons_iff.2 ⟨⟨_, rfl⟩, haveNames_cons_iff.2 ⟨⟨_, rfl⟩, haveNames_nil⟩⟩
  refine ⟨isStandard_bundled, isByMember_coding, spells_ignoredText, ?_⟩
  exact ((loads_by_content isStandard_bundled isByMember_coding).2.1 _ _ ⟨none, true⟩
    spells_ignoredText).2 ⟨hnames, .missing, .once (.bool true)⟩

/-- A member that is not known is passed over only if its name is a text. -/
theorem unpaired_name_refused :
    Spells "\x7b\"\\udc00\":1\x7d".toList
        (.element (.object [(halfName, .number ⟨false, [1], [], none⟩)])) ∧
      default.IsSaidBy [(halfName, .number ⟨false, [1], [], none⟩)] ∧
      fromText .bundled coding "\x7b\"\\udc00\":1\x7d" ≠ .ok default := by
  have hspells : Spells "\x7b\"\\udc00\":1\x7d".toList
      (.element (.object [(halfName, .number ⟨false, [1], [], none⟩)])) :=
    spells_element (Spells.object (.lastMember (spells_member spells_halfName spells_one)))
  refine ⟨hspells, ⟨.missing, .missing⟩, fun h => ?_⟩
  have hread := (fromText_object_iff isStandard_bundled isByMember_coding hspells).1 h
  obtain ⟨name, hname⟩ := (haveNames_cons_iff.1 hread.1).1
  have hnone : decodeText halfName = none := rfl
  cases hnone.symm.trans hname

end Config

end OrderedChoice
