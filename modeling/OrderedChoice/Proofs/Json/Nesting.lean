import OrderedChoice.Proofs.Json.Grammar

/-!
# How deeply JSON nests

The nesting of a text is the greatest number of arrays and objects that are open at one place of it.
For the texts of the grammar it is the depth of the tree.

* `textNesting` counts brackets and braces outside strings;
* `Spells.nestingFrom_eq`: a part adds the depth of what it stands for;
* `textNesting_of_spells`: the nesting of a text is the depth of its value.
-/

namespace OrderedChoice.Json

/-! ### Trees and texts -/

mutual

/-- How many arrays and objects of a tree contain each other. -/
def nesting : Json → Nat
  | array items => nestingOfItems items + 1
  | object members => nestingOfMembers members + 1
  | _ => 0

/-- The greatest nesting of items. -/
def nestingOfItems : List Json → Nat
  | [] => 0
  | j :: js => max (nesting j) (nestingOfItems js)

/-- The greatest nesting of members. -/
def nestingOfMembers : List (List JsonUnit × Json) → Nat
  | [] => 0
  | (_, j) :: ms => max (nesting j) (nestingOfMembers ms)

end

/-- The greatest number of brackets and braces that are open in the rest of a text, when some are
open before it and perhaps a string. -/
def nestingFrom : Nat → Bool → List Char → Nat
  | n, _, [] => n
  | n, true, '\\' :: _ :: cs => nestingFrom n true cs
  | n, inString, c :: cs =>
    if c = '"' then nestingFrom n (!inString) cs
    else if inString then nestingFrom n true cs
    else if c = '[' ∨ c = '\x7b' then nestingFrom (n + 1) false cs
    else if c = ']' ∨ c = '\x7d' then max n (nestingFrom (n - 1) false cs)
    else nestingFrom n false cs

/-- The greatest number of arrays and objects that are open at one place of a text. -/
def textNesting (text : String) : Nat := nestingFrom 0 false text.toList

/-- The nesting of what a part stands for. -/
def Part.nesting : Part → Nat
  | value j | element j => j.nesting
  | elements js => nestingOfItems js
  | member m => m.2.nesting
  | members ms => nestingOfMembers ms

/-! ### Counting in parts -/

theorem le_nestingFrom (n : Nat) (inString : Bool) (cs : List Char) :
    n ≤ nestingFrom n inString cs := by
  fun_induction nestingFrom n inString cs <;> omega

/-- Whether a character outside strings has no part in counting. -/
def isInert (c : Char) : Bool :=
  c != '"' && c != '[' && c != ']' && c != '\x7b' && c != '\x7d'

theorem nestingFrom_inert {cs : List Char} (hcs : ∀ c ∈ cs, isInert c = true) (n : Nat)
    (rest : List Char) : nestingFrom n false (cs ++ rest) = nestingFrom n false rest := by
  induction cs with
  | nil => rfl
  | cons c cs ih =>
    have hc := hcs c (by simp)
    simp only [isInert, Bool.and_eq_true, bne_iff_ne] at hc
    simp [nestingFrom, hc, ih fun d hd => hcs d (by simp [hd])]

theorem AreBlanks.isInert {cs : List Char} (h : AreBlanks cs) : ∀ c ∈ cs, isInert c = true := by
  intro c hc
  have hblank := h c hc
  simp only [isBlank, Bool.or_eq_true, beq_iff_eq] at hblank
  rcases hblank with ((rfl | rfl) | rfl) | rfl <;> decide

theorem AreDigits.isInert {cs : List Char} {ds : List Nat} (h : AreDigits cs ds) :
    ∀ c ∈ cs, isInert c = true := by
  have hdigit : ∀ d < 10, Json.isInert (Nat.digitChar d) = true := by decide
  obtain ⟨-, hds, rfl⟩ := h
  intro c hc
  obtain ⟨d, hd, rfl⟩ := List.mem_map.1 hc
  exact hdigit d (hds d hd)

theorem SpellsNumber.isInert {cs : List Char} {x : JsonNumber} (h : SpellsNumber cs x) :
    ∀ c ∈ cs, isInert c = true := by
  obtain @⟨negative, a, b, c, whole, fraction, exponent, hwhole, -, hfraction, hexponent⟩ := h
  have ha := AreDigits.isInert hwhole
  have hb : ∀ d ∈ b, Json.isInert d = true := by
    cases hfraction with
    | none => nofun
    | some h => exact List.forall_mem_cons.2 ⟨by decide, AreDigits.isInert h⟩
  have hmark : ∀ {e : Char}, e = 'e' ∨ e = 'E' → Json.isInert e = true := by
    rintro e (rfl | rfl) <;> decide
  have hc : ∀ d ∈ c, Json.isInert d = true := by
    cases hexponent with
    | none => nofun
    | unsigned he h => exact List.forall_mem_cons.2 ⟨hmark he, AreDigits.isInert h⟩
    | plus he h | minus he h =>
      exact List.forall_mem_cons.2
        ⟨hmark he, List.forall_mem_cons.2 ⟨by decide, AreDigits.isInert h⟩⟩
  have hsign : ∀ d ∈ if negative then ['-'] else [], Json.isInert d = true := by
    cases negative <;> simp [Json.isInert]
  simp only [List.forall_mem_append]
  exact ⟨hsign, ha, hb, hc⟩

theorem nestingFrom_unit {a : List Char} {u : JsonUnit} (h : SpellsUnit a u) (n : Nat)
    (rest : List Char) : nestingFrom n true (a ++ rest) = nestingFrom n true rest := by
  cases h with
  | plain hc hquote hslash => simp [nestingFrom, hquote, hslash]
  | letter he => rfl
  | code hn =>
    have hdigit : ∀ {x : Char} {k : Nat}, hexValue? x = some k → x ≠ '"' ∧ x ≠ '\\' := by
      intro x k hx
      constructor
      · rintro rfl
        cases hx
      · rintro rfl
        cases hx
    simp only [hexNumber?, Option.bind_eq_bind, Option.bind_eq_some_iff] at hn
    obtain ⟨_, ha, _, hb, _, hc, _, hd, -⟩ := hn
    simp [nestingFrom, hdigit ha, hdigit hb, hdigit hc, hdigit hd]

theorem nestingFrom_string {cs : List Char} {us : List JsonUnit} (h : SpellsString cs us) (n : Nat)
    (rest : List Char) : nestingFrom n false (cs ++ rest) = nestingFrom n false rest := by
  obtain ⟨h⟩ := h
  simp only [List.cons_append, List.append_assoc, List.nil_append, nestingFrom, ↓reduceIte,
    Bool.not_false]
  induction h with
  | nil => simp [nestingFrom]
  | cons hu hus ih => rw [List.append_assoc, nestingFrom_unit hu, ih]

/-- What nothing is counted in has no depth. -/
theorem nestingFrom_flat {n : Nat} {cs rest : List Char}
    (h : nestingFrom n false (cs ++ rest) = nestingFrom n false rest) :
    nestingFrom n false (cs ++ rest) = max (n + 0) (nestingFrom n false rest) := by
  rw [h, Nat.add_zero, max_eq_right (le_nestingFrom n false rest)]

/-- A part adds the depth of what it stands for. -/
theorem Spells.nestingFrom_eq {cs : List Char} {p : Part} (h : Spells cs p) (n : Nat)
    (rest : List Char) :
    nestingFrom n false (cs ++ rest) = max (n + p.nesting) (nestingFrom n false rest) := by
  induction h generalizing n rest with
  | null => exact nestingFrom_flat (nestingFrom_inert (List.all_eq_true.1 (by decide)) n rest)
  | bool b =>
    cases b <;>
      exact nestingFrom_flat (nestingFrom_inert (List.all_eq_true.1 (by decide)) n rest)
  | number h => exact nestingFrom_flat (nestingFrom_inert h.isInert n rest)
  | string h => exact nestingFrom_flat (nestingFrom_string h n rest)
  | emptyArray h | emptyObject h =>
    have hle := le_nestingFrom n false rest
    simp only [Part.nesting, nesting, nestingOfItems, nestingOfMembers, nestingFrom,
      List.cons_append, List.append_assoc, nestingFrom_inert h.isInert]
    simp
  | array h ih | object h ih =>
    have hle := le_nestingFrom n false rest
    simp only [Part.nesting, nesting, nestingFrom, List.cons_append, List.append_assoc, ih]
    simp
    omega
  | element ha h hb ih =>
    rw [List.append_assoc, List.append_assoc, nestingFrom_inert ha.isInert, ih,
      nestingFrom_inert hb.isInert]
    rfl
  | lastElement h ih | lastMember h ih =>
    simpa [Part.nesting, nestingOfItems, nestingOfMembers] using ih n rest
  | elements h hs ih ihs | members h hs ih ihs =>
    simp only [List.append_assoc, List.cons_append, ih]
    simp [nestingFrom, ihs, Part.nesting, nestingOfItems, nestingOfMembers]
    omega
  | member ha hkey hb h ih =>
    simp only [List.append_assoc, List.cons_append, nestingFrom_inert ha.isInert,
      nestingFrom_string hkey, nestingFrom_inert hb.isInert]
    simp [nestingFrom, ih, Part.nesting]

/-- The nesting of a text is the depth of its value. -/
theorem textNesting_of_spells {text : String} {j : Json} (h : Spells text.toList (.value j)) :
    textNesting text = j.nesting := by
  have hcount := h.nestingFrom_eq 0 []
  simpa [textNesting, nestingFrom, Part.nesting] using hcount

end OrderedChoice.Json
