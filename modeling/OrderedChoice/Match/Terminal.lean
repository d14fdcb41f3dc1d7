import OrderedChoice.Grammar.Symbol

/-!
# Text that is matched directly

A `Terminal` is a literal text or one character of a pattern.  Quantified, it takes as many
occurrences in a row as there are, and never gives one back.

* `Terminal.occurrence?` is one occurrence, `Terminal.occurrences` all in a row;
* `Terminal.taken?` is what a quantified terminal takes.
-/

namespace OrderedChoice

/-- Text that can be matched directly. -/
inductive Terminal where
  | literal (text : List Char)
  | pattern (p : Pattern)

namespace Terminal

/-- The number of characters of one occurrence at the start of a text. -/
def occurrence? : Terminal → List Char → Option Nat
  | literal text, cs => if text.isPrefixOf cs then some text.length else none
  | pattern p, c :: _ => if p.accepts c then some 1 else none
  | pattern _, [] => none

/-- The number of characters of all occurrences in a row, at most as many as the bound; an empty
occurrence is the last. -/
def occurrences (t : Terminal) : Nat → List Char → Nat
  | 0, _ => 0
  | bound + 1, cs =>
    match t.occurrence? cs with
    | none | some 0 => 0
    | some n => n + occurrences t bound (cs.drop n)

/-- The number of characters that a quantified text takes, if it matches. -/
def taken? (t : Terminal) (q : Quantifier) (cs : List Char) : Option Nat :=
  match t.occurrence? cs with
  | none => if q.allowsNone then some 0 else none
  | some n => some (if q.isRepeating then t.occurrences cs.length cs else n)

/-- An occurrence lies within the text. -/
theorem length_le_of_occurrence? {t : Terminal} {cs : List Char} {n : Nat}
    (h : t.occurrence? cs = some n) : n ≤ cs.length := by
  cases t with
  | literal text =>
    obtain ⟨hp, rfl⟩ : text.isPrefixOf cs = true ∧ text.length = n := by
      simpa [occurrence?] using h
    exact (List.isPrefixOf_iff_prefix.1 hp).length_le
  | pattern p =>
    cases cs with
    | nil => simp [occurrence?] at h
    | cons c cs =>
      obtain ⟨-, rfl⟩ : p.accepts c = true ∧ 1 = n := by simpa [occurrence?] using h
      simp

end Terminal

end OrderedChoice
