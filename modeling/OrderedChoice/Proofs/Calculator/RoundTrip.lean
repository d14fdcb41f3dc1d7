import OrderedChoice.Proofs.Calculator.Correctness

/-!
# Integers are read back

The calculator writes an integer in decimal digits, with a minus sign if it is negative, and reads
such a numeral with any white space and parentheses around it.

* `Wrapped.exists_derivation`: white space and parentheses do not change the value of what they
  surround;
* `value?_ofInt`: the value of the numeral of an integer.  The digits are read before the sign is
  looked at, so the least integer, whose digits alone stand for a number out of range, has none;
* `outcome_of_wrapped`: what the calculator makes of the numeral of any integer;
* `parse_integerText`: the integers that are read back are all but the least.
-/

namespace OrderedChoice.Calculator

/-! ### White space and parentheses -/

/-- A text with white space and pairs of parentheses around it, any number of them. -/
inductive Wrapped (core : List Char) : List Char → Prop
  | bare : Wrapped core core
  | blanks (before after : Blanks) {text : List Char} : Wrapped core text →
      Wrapped core (before.chars ++ (text ++ after.chars))
  | parens {text : List Char} : Wrapped core text → Wrapped core ('(' :: (text ++ [')']))

theorem accepts_of_mem_nil : ∀ c ∈ ([] : List Char), blank.accepts c = true :=
  List.forall_mem_nil _

/-- The empty text of white space. -/
def Blanks.empty : Blanks := ⟨[], accepts_of_mem_nil⟩

/-- White space behind white space. -/
def Blanks.append (a b : Blanks) : Blanks :=
  ⟨a.chars ++ b.chars, fun c hc => (List.mem_append.1 hc).elim (a.accepted c) (b.accepted c)⟩

/-- A sum that is nothing but a factor. -/
def Tree.sumOf (t : Tree .factor) : Tree (.chain .additive) :=
  .operand (r := .additive) (.operand (r := .multiplicative) t)

theorem text_sumOf (t : Tree .factor) : t.sumOf.text = t.text := rfl

/-- A factor has its value also with white space and parentheses around it. -/
theorem Wrapped.exists_derivation {t : Tree .factor} {text : List Char}
    (h : Wrapped t.text text) : ∃ d : Derivation, d.text = text ∧ d.sum.value? = t.value? := by
  induction h with
  | bare =>
    refine ⟨⟨.empty, t.sumOf, .empty⟩, ?_, rfl⟩
    simp [Derivation.text, Blanks.empty, text_sumOf]
  | blanks before after _ ih =>
    obtain ⟨d, rfl, hvalue⟩ := ih
    refine ⟨⟨before.append d.before, d.sum, d.after.append after⟩, ?_, hvalue⟩
    simp [Derivation.text, Blanks.append]
  | parens _ ih =>
    obtain ⟨d, rfl, hvalue⟩ := ih
    refine ⟨⟨.empty, (Tree.paren d.before d.sum d.after).sumOf, .empty⟩, ?_, hvalue⟩
    simp [Derivation.text, Blanks.empty, text_sumOf, Tree.text]

/-! ### Numerals -/

/-- The decimal digits of a number. -/
def Digits.ofNat (n : Nat) : Digits where
  chars := natDigits n
  ne_nil := natDigits_ne_nil n
  accepted c hc := by
    obtain ⟨d, hd, rfl⟩ := exists_digitChar_of_mem_natDigits hc
    have hall : ∀ d < 10, digit.accepts (Nat.digitChar d) = true := by
      simp only [accepts_digit]
      decide
    exact hall d hd

/-- The numeral of an integer, as a number with its sign. -/
def Tree.ofInt (i : Int) : Tree .factor := .number (i < 0) (.ofNat i.natAbs)

theorem text_ofInt (i : Int) : (Tree.ofInt i).text = intDigits i := by
  cases i with
  | ofNat n => rfl
  | negSucc n =>
    simp [Tree.ofInt, Tree.text, signText, Digits.ofNat, intDigits, Int.negSucc_lt_zero]

theorem value?_ofInt (i : Int) :
    (Tree.ofInt i).value? = if Fits i.natAbs then some i else none := by
  have hmagnitude : (Digits.ofNat i.natAbs).magnitude? = checked i.natAbs := by
    rw [Digits.magnitude?, Digits.ofNat, readNat?_natDigits]
    rfl
  have hsign : (if decide (i < 0) = true then -(i.natAbs : Int) else i.natAbs) = i := by
    simp only [decide_eq_true_eq]
    omega
  rw [Tree.ofInt, Tree.value?, hmagnitude, checked]
  by_cases hfits : Fits i.natAbs
  · rw [if_pos hfits, if_pos hfits, Option.map_some, hsign]
  · rw [if_neg hfits, if_neg hfits, Option.map_none]

/-- The value of the numeral of any integer, with white space and parentheses around it. -/
theorem outcome_of_wrapped {i : Int} {text : String} (h : Wrapped (intDigits i) text.toList)
    (before : String) (m : Machine Action) :
    ((session before m).parse text).1.outcome =
      .matched (toValue (if Fits i.natAbs then some i else none)) := by
  rw [← text_ofInt] at h
  obtain ⟨d, hd, hvalue⟩ := h.exists_derivation
  rw [Session.outcome_eq_matched (yields_derivation d hd), Tree.value, hvalue, value?_ofInt]

/-- The digits of all integers but the least stand for numbers in range. -/
theorem fits_natAbs_iff (n : Int64) : Fits n.toInt.natAbs ↔ n ≠ Int64.minValue := by
  have hlower := n.le_toInt
  have hupper := n.toInt_lt
  have hmin : Int64.minValue.toInt = -9223372036854775808 := rfl
  rw [fits_iff, Ne, ← Int64.toInt_inj, hmin]
  omega

/-- **The calculator reads back all integers but the least**, whatever white space and parentheses
are around them.  The least has no value, as its digits are read without the sign. -/
theorem parse_integerText (n : Int64) (text : String)
    (h : Wrapped (Value.integerText n).toList text.toList) (before : String)
    (m : Machine Action) : ((session before m).parse text).1.outcome =
      .matched (if n = Int64.minValue then .null else .integer n) := by
  rw [Value.integerText, intText, String.toList_ofList] at h
  rw [outcome_of_wrapped h]
  by_cases hmin : n = Int64.minValue
  · rw [if_pos hmin, if_neg fun hfits => (fits_natAbs_iff n).1 hfits hmin]
    rfl
  · rw [if_neg hmin, if_pos ((fits_natAbs_iff n).2 hmin), toValue, Int64.ofInt_toInt]

/-- A numeral with white space on both sides of a pair of parentheses. -/
theorem parse_integerText_parens :
    Wrapped (Value.integerText (-7)).toList " ( (-7 ) )\n".toList ∧
      ((session "" (.start [])).parse " ( (-7 ) )\n").1.outcome =
        .matched (.integer (-7)) := by
  have hspace : ∀ c ∈ [' '], blank.accepts c = true := by
    rw [List.forall_mem_singleton, accepts_blank]
    rfl
  have hnewline : ∀ c ∈ ['\n'], blank.accepts c = true := by
    rw [List.forall_mem_singleton, accepts_blank]
    rfl
  have hwrapped : Wrapped (Value.integerText (-7)).toList " ( (-7 ) )\n".toList :=
    .blanks ⟨[' '], hspace⟩ ⟨['\n'], hnewline⟩
      (.parens (.blanks ⟨[' '], hspace⟩ ⟨[' '], hspace⟩
        (.parens (.blanks .empty ⟨[' '], hspace⟩ .bare))))
  exact ⟨hwrapped, parse_integerText (-7) _ hwrapped "" (.start [])⟩

/-- The numeral of the least integer is not read back. -/
theorem least_not_read_back :
    Value.integerText Int64.minValue = "-9223372036854775808" ∧
      ((session "" (.start [])).parse "-9223372036854775808").1.outcome = .matched .null ∧
      ((session "" (.start [])).parse "-9223372036854775808").1.outcome ≠
        .matched (.integer Int64.minValue) := by
  have hnull : ((session "" (.start [])).parse "-9223372036854775808").1.outcome =
      .matched .null := by
    have hcore : Wrapped (intDigits (-9223372036854775808)) "-9223372036854775808".toList := .bare
    rw [outcome_of_wrapped hcore, if_neg (by decide), toValue]
  exact ⟨rfl, hnull, by rw [hnull]; simp⟩

end OrderedChoice.Calculator
