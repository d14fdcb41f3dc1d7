import Mathlib.Data.List.DropRight
import OrderedChoice.Json.Reader
import OrderedChoice.Proofs.Numerals
import OrderedChoice.Proofs.Span
import OrderedChoice.Text.Fields

/-!
# The grammar of JSON

`Spells` derives the texts of values, elements (values with blanks around them), members and lists
of these, each with what it stands for.  What the grammar derives, the reader reads.

* `Part.Reads` says what reading a part of a text gives, whatever follows the part;
* `Spells.reads`: every part that the grammar derives is read so, by induction on the derivation;
* `read_of_spells`: a text that the grammar derives as an element is read as its value.
-/

namespace OrderedChoice.Json

/-- Blanks only. -/
def AreBlanks (cs : List Char) : Prop := ∀ c ∈ cs, isBlank c = true

theorem areBlanks_nil : AreBlanks [] := by simp [AreBlanks]

/-! ### Strings and numbers -/

/-- The ways to write a part of a string. -/
inductive SpellsUnit : List Char → JsonUnit → Prop
  | plain {c : Char} (hc : 32 ≤ c.toNat) (hquote : c ≠ '"') (hslash : c ≠ '\\') :
      SpellsUnit [c] (.char c)
  | letter {e c : Char} (he : escaped? e = some c) : SpellsUnit ['\\', e] (.char c)
  | code {a b c d : Char} {n : Nat} (hn : hexNumber? a b c d = some n) :
      SpellsUnit ['\\', 'u', a, b, c, d] (.escape n)

/-- Parts of a string, one after the other. -/
inductive SpellsUnits : List Char → List JsonUnit → Prop
  | nil : SpellsUnits [] []
  | cons {a b : List Char} {u : JsonUnit} {us : List JsonUnit} (hu : SpellsUnit a u)
      (hus : SpellsUnits b us) : SpellsUnits (a ++ b) (u :: us)

/-- A string between its quotes. -/
inductive SpellsString : List Char → List JsonUnit → Prop
  | quoted {cs : List Char} {us : List JsonUnit} (h : SpellsUnits cs us) :
      SpellsString ('"' :: (cs ++ ['"'])) us

/-- The digits after a point, or none. -/
inductive SpellsFraction : List Char → List Nat → Prop
  | none : SpellsFraction [] []
  | some {cs : List Char} {ds : List Nat} (h : AreDigits cs ds) : SpellsFraction ('.' :: cs) ds

/-- An exponent, or none. -/
inductive SpellsExponent : List Char → Option (Bool × List Nat) → Prop
  | none : SpellsExponent [] none
  | unsigned {e : Char} {cs : List Char} {ds : List Nat} (he : e = 'e' ∨ e = 'E')
      (h : AreDigits cs ds) : SpellsExponent (e :: cs) (some (false, ds))
  | plus {e : Char} {cs : List Char} {ds : List Nat} (he : e = 'e' ∨ e = 'E')
      (h : AreDigits cs ds) : SpellsExponent (e :: '+' :: cs) (some (false, ds))
  | minus {e : Char} {cs : List Char} {ds : List Nat} (he : e = 'e' ∨ e = 'E')
      (h : AreDigits cs ds) : SpellsExponent (e :: '-' :: cs) (some (true, ds))

/-- A number: no digit follows a zero at its front. -/
inductive SpellsNumber : List Char → JsonNumber → Prop
  | mk {negative : Bool} {a b c : List Char} {whole fraction : List Nat}
      {exponent : Option (Bool × List Nat)} (hwhole : AreDigits a whole)
      (hzero : whole.head? = some 0 → whole = [0]) (hfraction : SpellsFraction b fraction)
      (hexponent : SpellsExponent c exponent) :
      SpellsNumber ((if negative then ['-'] else []) ++ (a ++ (b ++ c)))
        ⟨negative, whole, fraction, exponent⟩

theorem SpellsNumber.ofDigits (negative : Bool) {cs : List Char} {ds : List Nat}
    (h : AreDigits cs ds) (hzero : ds.head? = some 0 → ds = [0]) :
    SpellsNumber ((if negative then ['-'] else []) ++ cs) ⟨negative, ds, [], .none⟩ := by
  have hspells := @SpellsNumber.mk negative _ _ _ _ _ _ h hzero .none .none
  rwa [List.append_nil, List.append_nil] at hspells

/-! ### Values -/

/-- What a part of a text stands for. -/
inductive Part where
  | value (j : Json)
  /-- A value with blanks around it. -/
  | element (j : Json)
  | elements (js : List Json)
  | member (m : List JsonUnit × Json)
  | members (ms : List (List JsonUnit × Json))

/-- The texts of the parts. -/
inductive Spells : List Char → Part → Prop
  | null : Spells ['n', 'u', 'l', 'l'] (.value .null)
  | bool (b : Bool) : Spells (flagText b).toList (.value (.bool b))
  | number {cs : List Char} {x : JsonNumber} (h : SpellsNumber cs x) :
      Spells cs (.value (.number x))
  | string {cs : List Char} {us : List JsonUnit} (h : SpellsString cs us) :
      Spells cs (.value (.string us))
  | emptyArray {cs : List Char} (h : AreBlanks cs) :
      Spells ('[' :: (cs ++ [']'])) (.value (.array []))
  | array {cs : List Char} {js : List Json} (h : Spells cs (.elements js)) :
      Spells ('[' :: (cs ++ [']'])) (.value (.array js))
  | emptyObject {cs : List Char} (h : AreBlanks cs) :
      Spells ('\x7b' :: (cs ++ ['\x7d'])) (.value (.object []))
  | object {cs : List Char} {ms : List (List JsonUnit × Json)} (h : Spells cs (.members ms)) :
      Spells ('\x7b' :: (cs ++ ['\x7d'])) (.value (.object ms))
  | element {a b cs : List Char} {j : Json} (ha : AreBlanks a) (h : Spells cs (.value j))
      (hb : AreBlanks b) : Spells (a ++ (cs ++ b)) (.element j)
  | lastElement {cs : List Char} {j : Json} (h : Spells cs (.element j)) : Spells cs (.elements [j])
  | elements {a b : List Char} {j : Json} {js : List Json} (h : Spells a (.element j))
      (hs : Spells b (.elements js)) : Spells (a ++ ',' :: b) (.elements (j :: js))
  | member {a b key cs : List Char} {us : List JsonUnit} {j : Json} (ha : AreBlanks a)
      (hkey : SpellsString key us) (hb : AreBlanks b) (h : Spells cs (.element j)) :
      Spells (a ++ (key ++ (b ++ ':' :: cs))) (.member (us, j))
  | lastMember {cs : List Char} {m : List JsonUnit × Json} (h : Spells cs (.member m)) :
      Spells cs (.members [m])
  | members {a b : List Char} {m : List JsonUnit × Json} {ms : List (List JsonUnit × Json)}
      (h : Spells a (.member m)) (hs : Spells b (.members ms)) :
      Spells (a ++ ',' :: b) (.members (m :: ms))

/-! ### Reading blanks and strings -/

theorem dropBlanks_blanks {a : List Char} (ha : AreBlanks a) (cs : List Char) :
    dropBlanks (a ++ cs) = dropBlanks cs :=
  List.dropWhile_append_of_pos ha

theorem dropBlanks_cons {c : Char} (hc : isBlank c = false) (cs : List Char) :
    dropBlanks (c :: cs) = c :: cs := by
  rw [dropBlanks, List.dropWhile_cons_of_neg (by simp [hc])]

theorem readValue_dropBlanks (n : Nat) (cs : List Char) :
    readValue n (dropBlanks cs) = readValue n cs := by
  cases n with
  | zero => rfl
  | succ n => rw [readValue, readValue, dropBlanks, dropBlanks, List.dropWhile_idempotent]

theorem readItems_dropBlanks (n : Nat) (cs : List Char) :
    readItems n (dropBlanks cs) = readItems n cs := by
  cases n with
  | zero => rfl
  | succ n => rw [readItems, readItems, readValue_dropBlanks]

theorem readMembers_dropBlanks (n : Nat) (cs : List Char) :
    readMembers n (dropBlanks cs) = readMembers n cs := by
  cases n with
  | zero => rfl
  | succ n => rw [readMembers, readMembers, dropBlanks, dropBlanks, List.dropWhile_idempotent]

theorem readString_unit {a : List Char} {u : JsonUnit} (h : SpellsUnit a u) (rest : List Char) :
    readString (a ++ rest) = (readString rest).map fun (us, r) => (u :: us, r) := by
  cases h with
  | plain hc hquote hslash =>
    have hc : ¬ _ < 32 := Nat.not_lt.2 hc
    simp [readString, hslash, hc]
  | @letter e c he =>
    have hu : e ≠ 'u' := by
      rintro rfl
      cases he
    simp [readString, hu, he]
  | code hn => simp [readString, hn]

theorem readString_units {cs : List Char} {us : List JsonUnit} (h : SpellsUnits cs us)
    (rest : List Char) : readString (cs ++ '"' :: rest) = some (us, rest) := by
  induction h with
  | nil => rfl
  | cons hu hus ih => rw [List.append_assoc, readString_unit hu, ih]; rfl

/-! ### Reading numbers -/

/-- Whether a character is a decimal digit. -/
def isDigit (c : Char) : Bool := (digitValue? c).isSome

/-- Whether a character may go on with a number. -/
def isNumberChar (c : Char) : Bool := isDigit c || c == '.' || c == 'e' || c == 'E'

theorem noHead_isDigit {cs : List Char} (h : NoHead isNumberChar cs) : NoHead isDigit cs := by
  intro c hc
  have hchar := h c hc
  simp only [isNumberChar, Bool.or_eq_false_iff] at hchar
  exact hchar.1.1.1

theorem takeDigits_map {ds : List Nat} (hds : ∀ d ∈ ds, d < 10) {rest : List Char}
    (hrest : NoHead isDigit rest) : takeDigits (ds.map Nat.digitChar ++ rest) = (ds, rest) := by
  induction ds with
  | nil =>
    cases rest with
    | nil => rfl
    | cons c rest =>
      have hc : digitValue? c = none := by simpa [isDigit] using noHead_cons.1 hrest
      simp [takeDigits, hc]
  | cons d ds ih =>
    have hd : d < 10 := hds d (by simp)
    have hds' : ∀ e ∈ ds, e < 10 := fun e he => hds e (by simp [he])
    simp [takeDigits, digitValue?_digitChar hd, ih hds']

theorem readDigits_digits {cs : List Char} {ds : List Nat} (h : AreDigits cs ds) {rest : List Char}
    (hrest : NoHead isDigit rest) : readDigits (cs ++ rest) = some (ds, rest) := by
  obtain ⟨hne, hds, rfl⟩ := h
  rw [readDigits, takeDigits_map hds hrest]
  cases ds with
  | nil => exact absurd rfl hne
  | cons d ds => rfl

theorem readWhole_digits {cs : List Char} {ds : List Nat} (h : AreDigits cs ds)
    (hzero : ds.head? = some 0 → ds = [0]) {rest : List Char} (hrest : NoHead isDigit rest) :
    readWhole (cs ++ rest) = some (ds, rest) := by
  rw [readWhole, readDigits_digits h hrest]
  split
  · rename_i heq
    cases heq
    cases hzero rfl
  · rfl

theorem readFraction_fraction {cs : List Char} {ds : List Nat} (h : SpellsFraction cs ds)
    {rest : List Char} (hdigit : NoHead isDigit rest) (hpoint : NoHead (· == '.') rest) :
    readFraction (cs ++ rest) = some (ds, rest) := by
  cases h with
  | some h => exact readDigits_digits h hdigit
  | none =>
    cases rest with
    | nil => rfl
    | cons c rest =>
      have hc : c ≠ '.' := by simpa using noHead_cons.1 hpoint
      simp [readFraction, hc]

theorem exists_digit {cs : List Char} {ds : List Nat} (h : AreDigits cs ds) :
    ∃ d < 10, ∃ r, cs = Nat.digitChar d :: r := by
  obtain ⟨hne, hds, rfl⟩ := h
  cases ds with
  | nil => exact absurd rfl hne
  | cons d ds => exact ⟨d, hds d (by simp), _, rfl⟩

theorem readExponent_exponent {cs : List Char} {e : Option (Bool × List Nat)}
    (h : SpellsExponent cs e) {rest : List Char} (hrest : NoHead isNumberChar rest) :
    readExponent (cs ++ rest) = some (e, rest) := by
  have hdigit := noHead_isDigit hrest
  cases h with
  | none =>
    cases rest with
    | nil => rfl
    | cons c rest =>
      have hc := noHead_cons.1 hrest
      simp only [isNumberChar, Bool.or_eq_false_iff] at hc
      simp [readExponent, hc]
  | unsigned he h =>
    have hread := readDigits_digits h hdigit
    obtain ⟨d, hd, r, rfl⟩ := exists_digit h
    have hsign : ∀ d < 10, Nat.digitChar d ≠ '-' ∧ Nat.digitChar d ≠ '+' := by decide
    rcases he with rfl | rfl <;> simp_all [readExponent, hsign d hd]
  | plus he h | minus he h =>
    rcases he with rfl | rfl <;> simp [readExponent, readDigits_digits h hdigit]

theorem noHead_exponent {cs : List Char} {e : Option (Bool × List Nat)} (h : SpellsExponent cs e)
    {rest : List Char} (hrest : NoHead isNumberChar rest) :
    NoHead isDigit (cs ++ rest) ∧ NoHead (· == '.') (cs ++ rest) := by
  cases h with
  | none =>
    refine ⟨noHead_isDigit hrest, fun c hc => ?_⟩
    have hchar := hrest c hc
    simp only [isNumberChar, Bool.or_eq_false_iff] at hchar
    exact hchar.1.1.2
  | unsigned he | plus he | minus he =>
    rcases he with rfl | rfl <;> exact ⟨noHead_cons.2 (by decide), noHead_cons.2 (by decide)⟩

theorem noHead_fraction {cs : List Char} {ds : List Nat} (h : SpellsFraction cs ds)
    {rest : List Char} (hrest : NoHead isDigit rest) : NoHead isDigit (cs ++ rest) := by
  cases h with
  | none => exact hrest
  | some h => exact noHead_cons.2 (by decide)

theorem readNumber_number {cs : List Char} {x : JsonNumber} (h : SpellsNumber cs x)
    {rest : List Char} (hrest : NoHead isNumberChar rest) :
    readNumber (cs ++ rest) = some (x, rest) := by
  obtain @⟨negative, a, b, c, whole, fraction, exponent, hwhole, hzero, hfraction, hexponent⟩ := h
  obtain ⟨hdigit, hpoint⟩ := noHead_exponent hexponent hrest
  have hread : readWhole (a ++ (b ++ (c ++ rest))) = some (whole, b ++ (c ++ rest)) :=
    readWhole_digits hwhole hzero (noHead_fraction hfraction hdigit)
  have hread' := readFraction_fraction hfraction hdigit hpoint
  have hread'' := readExponent_exponent hexponent hrest
  cases negative with
  | true => simp [readNumber, hread, hread', hread'']
  | false =>
    obtain ⟨d, hd, r, rfl⟩ := exists_digit hwhole
    have hsign : ∀ d < 10, Nat.digitChar d ≠ '-' := by decide
    rw [List.cons_append] at hread
    simp [readNumber, hsign d hd, hread, hread', hread'']

/-! ### Reading values -/

/-- What reading a part gives, whatever follows it: the part itself, and of blanks behind an element
what is left of them.  The number of steps is bounded by the length of the part. -/
def Part.Reads (cs : List Char) : Part → Prop
  | value j => ∀ n rest, 2 * cs.length ≤ n → NoHead isNumberChar rest →
      readValue n (cs ++ rest) = some (j, rest)
  | element j => ∀ n rest, 2 * cs.length ≤ n → NoHead isNumberChar rest →
      ∃ b, AreBlanks b ∧ readValue n (cs ++ rest) = some (j, b ++ rest)
  | elements js => ∀ n rest, 2 * cs.length < n →
      readItems n (cs ++ ']' :: rest) = some (js, rest)
  | member m => ∀ n rest, 2 * cs.length ≤ n →
      readMembers (n + 1) (cs ++ ',' :: rest) =
          (readMembers n rest).map (fun (ms, r) => (m :: ms, r)) ∧
        readMembers (n + 1) (cs ++ '\x7d' :: rest) = some ([m], rest)
  | members ms => ∀ n rest, 2 * cs.length < n →
      readMembers n (cs ++ '\x7d' :: rest) = some (ms, rest)

theorem AreBlanks.append {a b : List Char} (ha : AreBlanks a) (hb : AreBlanks b) :
    AreBlanks (a ++ b) := by
  intro c hc
  rcases List.mem_append.1 hc with hc | hc
  · exact ha c hc
  · exact hb c hc

/-- What a number may begin with. -/
def numberHeads : List Char := '-' :: (List.range 10).map Nat.digitChar

theorem SpellsNumber.exists_head {cs : List Char} {x : JsonNumber} (h : SpellsNumber cs x) :
    ∃ c ∈ numberHeads, ∃ r, cs = c :: r := by
  obtain @⟨negative, a, b, c, whole, fraction, exponent, hwhole, -, -, -⟩ := h
  cases negative with
  | true => exact ⟨'-', by decide, _, rfl⟩
  | false =>
    have hdigit : ∀ d < 10, Nat.digitChar d ∈ numberHeads := by decide
    obtain ⟨d, hd, r, rfl⟩ := exists_digit hwhole
    exact ⟨_, hdigit d hd, _, rfl⟩

/-- Whether a value may begin with a character. -/
def isValueHead (c : Char) : Bool := !isBlank c && c != ']' && c != '\x7d'

/-- Behind its blanks, a part begins with something else than a closing bracket or brace. -/
theorem Spells.exists_head {cs : List Char} {p : Part} (h : Spells cs p) :
    ∃ a c r, AreBlanks a ∧ isValueHead c = true ∧ cs = a ++ c :: r := by
  induction h with
  | null => exact ⟨[], _, _, areBlanks_nil, by decide, rfl⟩
  | bool b => cases b <;> exact ⟨[], _, _, areBlanks_nil, by decide, rfl⟩
  | number h =>
    have hhead : numberHeads.all isValueHead = true := by decide
    obtain ⟨c, hc, r, rfl⟩ := h.exists_head
    exact ⟨[], c, r, areBlanks_nil, List.all_eq_true.1 hhead c hc, rfl⟩
  | string h =>
    cases h
    exact ⟨[], _, _, areBlanks_nil, by decide, rfl⟩
  | emptyArray | array | emptyObject | object => exact ⟨[], _, _, areBlanks_nil, by decide, rfl⟩
  | @element a b cs j ha h hb ih =>
    obtain ⟨a', c, r, ha', hc, rfl⟩ := ih
    exact ⟨a ++ a', c, r ++ b, ha.append ha', hc, by simp⟩
  | lastElement h ih | lastMember h ih => exact ih
  | @elements a b _ _ _ _ ih | @members a b _ _ _ _ ih =>
    obtain ⟨a, c, r, ha, hc, rfl⟩ := ih
    exact ⟨a, c, r ++ ',' :: b, ha, hc, by simp⟩
  | member ha hkey =>
    cases hkey
    exact ⟨_, '"', _, ha, by decide, rfl⟩

theorem Spells.exists_dropBlanks {cs : List Char} {p : Part} (h : Spells cs p)
    (rest : List Char) :
    ∃ c r, c ≠ ']' ∧ c ≠ '\x7d' ∧ dropBlanks (cs ++ rest) = c :: r := by
  obtain ⟨a, c, r, ha, hc, rfl⟩ := h.exists_head
  simp only [isValueHead, Bool.and_eq_true, bne_iff_ne, Bool.not_eq_true'] at hc
  refine ⟨c, r ++ rest, hc.1.2, hc.2, ?_⟩
  rw [List.append_assoc, dropBlanks_blanks ha, List.cons_append, dropBlanks_cons hc.1.1]

theorem readValue_number {c : Char} (hc : c ∈ numberHeads) (n : Nat) (r : List Char) :
    readValue (n + 1) (c :: r) =
      (readNumber (c :: r)).map fun (x, rest) => (.number x, rest) := by
  have hhead : numberHeads.all (fun c => !isBlank c &&
      !(['n', 't', 'f', '"', '[', '\x7b'].contains c)) = true := by decide
  have hother := List.all_eq_true.1 hhead c hc
  simp only [Bool.and_eq_true, Bool.not_eq_true', List.contains_eq_mem, decide_eq_false_iff_not,
    List.mem_cons, not_or] at hother
  simp [readValue, dropBlanks_cons hother.1, hother.2]

theorem noHead_blanks {a rest : List Char} (ha : AreBlanks a) (hrest : NoHead isNumberChar rest) :
    NoHead isNumberChar (a ++ rest) := by
  have hblank : ∀ c, isBlank c = true → isNumberChar c = false := by
    intro c hc
    simp only [isBlank, Bool.or_eq_true, beq_iff_eq] at hc
    rcases hc with ((rfl | rfl) | rfl) | rfl <;> decide
  cases a with
  | nil => exact hrest
  | cons c a => exact noHead_cons.2 (hblank c (ha c (by simp)))

/-- An element before a comma is followed by more items, before a bracket it is the last. -/
theorem Part.Reads.items {cs : List Char} {j : Json} (h : Part.Reads cs (.element j)) {n : Nat}
    (hn : 2 * cs.length ≤ n) (rest : List Char) :
    readItems (n + 1) (cs ++ ',' :: rest) =
        (readItems n rest).map (fun (js, r) => (j :: js, r)) ∧
      readItems (n + 1) (cs ++ ']' :: rest) = some ([j], rest) := by
  constructor
  · obtain ⟨b, hb, hread⟩ := h n (',' :: rest) hn (noHead_cons.2 (by decide))
    simp [readItems, hread, dropBlanks_blanks hb, dropBlanks_cons, isBlank]
  · obtain ⟨b, hb, hread⟩ := h n (']' :: rest) hn (noHead_cons.2 (by decide))
    simp [readItems, hread, dropBlanks_blanks hb, dropBlanks_cons, isBlank]

/-- What the grammar derives is read. -/
theorem Spells.reads {cs : List Char} {p : Part} (h : Spells cs p) : p.Reads cs := by
  -- on the derivation: each step that the reader takes into a part costs at most two characters
  induction h with
  | null =>
    rintro (_ | n) rest hn -
    · cases hn
    · rfl
  | bool b =>
    rintro (_ | n) rest hn -
    · cases b <;> cases hn
    · cases b <;> rfl
  | number h =>
    intro n rest hn hrest
    have hread := readNumber_number h hrest
    obtain ⟨c, hc, r, rfl⟩ := h.exists_head
    cases n with
    | zero => cases hn
    | succ n =>
      rw [List.cons_append] at hread ⊢
      rw [readValue_number hc, hread]
      rfl
  | string h =>
    cases h with
    | quoted h =>
      rintro (_ | n) rest hn -
      · cases hn
      · simp [readValue, dropBlanks, isBlank, readString_units h]
  | emptyArray h | emptyObject h =>
    rintro (_ | n) rest hn -
    · cases hn
    · simp [readValue, dropBlanks_cons, isBlank, dropBlanks_blanks h]
  | array h ih =>
    rintro (_ | n) rest hn -
    · cases hn
    · obtain ⟨c, r, hc, -, hdrop⟩ := h.exists_dropBlanks (']' :: rest)
      simp only [List.length_cons, List.length_append, List.length_nil] at hn
      have hread := ih n rest (by omega)
      rw [← readItems_dropBlanks, hdrop] at hread
      simp [readValue, dropBlanks_cons, isBlank, hdrop, hc, hread]
  | object h ih =>
    rintro (_ | n) rest hn -
    · cases hn
    · obtain ⟨c, r, -, hc, hdrop⟩ := h.exists_dropBlanks ('\x7d' :: rest)
      simp only [List.length_cons, List.length_append, List.length_nil] at hn
      have hread := ih n rest (by omega)
      rw [← readMembers_dropBlanks, hdrop] at hread
      simp [readValue, dropBlanks_cons, isBlank, hdrop, hc, hread]
  | @element a b cs j ha h hb ih =>
    intro n rest hn hrest
    simp only [List.length_append] at hn
    refine ⟨b, hb, ?_⟩
    rw [List.append_assoc, List.append_assoc, ← readValue_dropBlanks, dropBlanks_blanks ha,
      readValue_dropBlanks]
    exact ih n _ (by omega) (noHead_blanks hb hrest)
  | lastElement h ih =>
    rintro (_ | n) rest hn
    · cases hn
    · exact (ih.items (by omega) rest).2
  | elements h hs ih ihs =>
    rintro (_ | n) rest hn
    · cases hn
    · simp only [List.length_cons, List.length_append] at hn
      rw [List.append_assoc, List.cons_append, (ih.items (by omega) _).1, ihs n rest (by omega)]
      rfl
  | @member a b _ cs us j ha hkey hb h ih =>
    intro n rest hn
    cases hkey with
    | @quoted key _ hkey =>
      simp only [List.length_cons, List.length_append, List.length_nil] at hn
      constructor
      · obtain ⟨c, hc, hread⟩ := ih n (',' :: rest) (by omega) (noHead_cons.2 (by decide))
        simp [readMembers, dropBlanks_blanks ha, dropBlanks_cons, isBlank, readString_units hkey,
          dropBlanks_blanks hb, hread, dropBlanks_blanks hc]
      · obtain ⟨c, hc, hread⟩ := ih n ('\x7d' :: rest) (by omega) (noHead_cons.2 (by decide))
        simp [readMembers, dropBlanks_blanks ha, dropBlanks_cons, isBlank, readString_units hkey,
          dropBlanks_blanks hb, hread, dropBlanks_blanks hc]
  | lastMember h ih =>
    rintro (_ | n) rest hn
    · cases hn
    · exact (ih n rest (by omega)).2
  | members h hs ih ihs =>
    rintro (_ | n) rest hn
    · cases hn
    · simp only [List.length_cons, List.length_append] at hn
      rw [List.append_assoc, List.cons_append, (ih n _ (by omega)).1, ihs n rest (by omega)]
      rfl

/-- A text that the grammar derives as an element is read as its value. -/
theorem read_of_spells {text : List Char} {j : Json} (h : Spells text (.element j)) :
    read text = some j := by
  obtain ⟨b, hb, hread⟩ := h.reads (2 * text.length + 2) [] (by omega) (noHead_nil _)
  rw [List.append_nil, List.append_nil] at hread
  have hend : dropBlanks b = [] := by simpa [dropBlanks] using dropBlanks_blanks hb []
  simp [read, hread, hend]

end OrderedChoice.Json
