import Mathlib.Data.List.TakeWhile
import OrderedChoice.Proofs.Numerals
import OrderedChoice.Value.Basic

/-!
# Values as integers

A value is converted to an integer through its text, without the white space around it.  Integers
are not converted at all, which makes no difference, so only the text of a value counts.

* `readInt64?_trimmed_iff`: a text without its white space is read iff it is a numeral with white
  space around it;
* `Value.toInteger_iff_text`: the integer of a value is that of its text, whatever parts the value
  is made up of.
-/

namespace OrderedChoice

open Value

/-- White space only. -/
def IsWhite (cs : List Char) : Prop := ∀ c ∈ cs, Unicode.isWhiteSpace c = true

instance (cs : List Char) : Decidable (IsWhite cs) :=
  decidable_of_iff (cs.all Unicode.isWhiteSpace = true) List.all_eq_true

/-- The text is the core with white space around it. -/
def Pads (text core : List Char) : Prop :=
  ∃ before after, IsWhite before ∧ IsWhite after ∧ text = before ++ core ++ after

/-! ### White space at the ends -/

theorem isWhite_takeWhile (cs : List Char) : IsWhite (cs.takeWhile Unicode.isWhiteSpace) :=
  fun _ h => List.mem_takeWhile_imp h

theorem IsWhite.reverse {cs : List Char} (h : IsWhite cs) : IsWhite cs.reverse :=
  fun c hc => h c (List.mem_reverse.1 hc)

theorem pads_trimmed (text : List Char) : Pads text (trimmed text) := by
  let mid := text.dropWhile Unicode.isWhiteSpace
  have htext : text.takeWhile Unicode.isWhiteSpace ++ mid = text := List.takeWhile_append_dropWhile
  have hmid : trimmed text ++ (mid.reverse.takeWhile Unicode.isWhiteSpace).reverse = mid := by
    rw [trimmed, ← List.reverse_append, List.takeWhile_append_dropWhile, List.reverse_reverse]
  refine ⟨text.takeWhile Unicode.isWhiteSpace,
    (mid.reverse.takeWhile Unicode.isWhiteSpace).reverse, isWhite_takeWhile text, ?_, ?_⟩
  · exact (isWhite_takeWhile mid.reverse).reverse
  · rw [List.append_assoc, hmid, htext]

theorem dropWhile_white {before core : List Char} (hbefore : IsWhite before)
    (hcore : ∀ c ∈ core, Unicode.isWhiteSpace c = false) (hne : core ≠ []) (after : List Char) :
    (before ++ (core ++ after)).dropWhile Unicode.isWhiteSpace = core ++ after := by
  rw [List.dropWhile_append_of_pos hbefore]
  cases core with
  | nil => exact absurd rfl hne
  | cons c core => simp [hcore c (by simp)]

theorem trimmed_eq_of_pads {text core : List Char} (h : Pads text core)
    (hcore : ∀ c ∈ core, Unicode.isWhiteSpace c = false) (hne : core ≠ []) :
    trimmed text = core := by
  obtain ⟨before, after, hbefore, hafter, rfl⟩ := h
  have hcore' : ∀ c ∈ core.reverse, Unicode.isWhiteSpace c = false :=
    fun c hc => hcore c (List.mem_reverse.1 hc)
  have hback := dropWhile_white hafter.reverse hcore' (by simpa using hne) []
  rw [List.append_nil] at hback
  rw [trimmed, List.append_assoc, dropWhile_white hbefore hcore hne, List.reverse_append, hback,
    List.reverse_reverse]

/-! ### Numerals with white space around them -/

theorem IsNumeral.ne_nil {cs : List Char} {n : Nat} (h : IsNumeral cs n) : cs ≠ [] := by
  obtain ⟨ds, ⟨hne, -, rfl⟩, -⟩ := h
  simpa using hne

theorem IsNumeral.isWhiteSpace_eq_false {cs : List Char} {n : Nat} (h : IsNumeral cs n) :
    ∀ c ∈ cs, Unicode.isWhiteSpace c = false := by
  have hdigit : ∀ d < 10, Unicode.isWhiteSpace (Nat.digitChar d) = false := by decide
  obtain ⟨ds, ⟨-, hds, rfl⟩, -⟩ := h
  simp only [List.mem_map]
  rintro c ⟨d, hd, rfl⟩
  exact hdigit d (hds d hd)

theorem Denotes.ne_nil {cs : List Char} {i : Int} (h : Denotes cs i) : cs ≠ [] := by
  cases h with
  | unsigned h => exact h.ne_nil
  | plus h => exact List.cons_ne_nil _ _
  | minus h => exact List.cons_ne_nil _ _

theorem Denotes.isWhiteSpace_eq_false {cs : List Char} {i : Int} (h : Denotes cs i) :
    ∀ c ∈ cs, Unicode.isWhiteSpace c = false := by
  cases h with
  | unsigned h => exact h.isWhiteSpace_eq_false
  | plus h => exact List.forall_mem_cons.2 ⟨by decide, h.isWhiteSpace_eq_false⟩
  | minus h => exact List.forall_mem_cons.2 ⟨by decide, h.isWhiteSpace_eq_false⟩

theorem denotes_intDigits (i : Int) : Denotes (intDigits i) i :=
  readInt?_eq_some_iff.1 (readInt?_intDigits i)

theorem readInt64?_trimmed_iff {text : List Char} {n : Int64} :
    readInt64? (trimmed text) = some n ↔
      ∃ numeral, Pads text numeral ∧ Denotes numeral n.toInt := by
  rw [readInt64?_eq_some_iff]
  constructor
  · exact fun h => ⟨_, pads_trimmed text, h⟩
  · rintro ⟨numeral, hpads, h⟩
    rwa [trimmed_eq_of_pads hpads h.isWhiteSpace_eq_false h.ne_nil]

/-! ### Values -/

theorem toInteger_eq_readInt64? (v : Value) :
    v.toInteger = readInt64? (trimmed v.text.toList) := by
  cases v with
  | integer i =>
    have hnumeral : Denotes (text (integer i)).toList i.toInt := by
      simpa [text, integerText, intText] using denotes_intDigits i.toInt
    have hpads : Pads (text (integer i)).toList (text (integer i)).toList :=
      ⟨[], [], by simp [IsWhite], by simp [IsWhite], by simp⟩
    exact (readInt64?_trimmed_iff.2 ⟨_, hpads, hnumeral⟩).symm
  | _ => rfl

/-- The integer of a value is the one that its text is a numeral of, white space around it left
out, for integers and for all other values.  So a value with the digits of an integer as its text is
converted to it, however the digits are divided among its parts. -/
theorem Value.toInteger_iff_text :
    (∀ v : Value, v.toInteger = readInt64? (trimmed v.text.toList)) ∧
      (∀ (text : List Char) (n : Int64), readInt64? (trimmed text) = some n ↔
        ∃ numeral, Pads text numeral ∧ Denotes numeral n.toInt) ∧
      ∀ (v : Value) (n : Int64), Pads v.text.toList (intDigits n.toInt) → v.toInteger = some n := by
  refine ⟨toInteger_eq_readInt64?, fun _ _ => readInt64?_trimmed_iff, fun v n h => ?_⟩
  rw [toInteger_eq_readInt64?]
  exact readInt64?_trimmed_iff.2 ⟨_, h, denotes_intDigits n.toInt⟩

/-- The least integer in parts. -/
theorem Value.toInteger_iff_text_minimum :
    Pads "\t -9223372036854775808\u2003".toList (intDigits Int64.minValue.toInt) ∧
      toInteger (list [string "\t -9", list [null, integer 223372036854], string "775808\u2003"]) =
        some Int64.minValue := by
  have hpads : Pads "\t -9223372036854775808\u2003".toList (intDigits Int64.minValue.toInt) :=
    ⟨['\t', ' '], ['\u2003'], by decide, by decide, by decide⟩
  exact ⟨hpads, Value.toInteger_iff_text.2.2 _ _ hpads⟩

end OrderedChoice
