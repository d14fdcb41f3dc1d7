import OrderedChoice.Proofs.Calculator.Rules

/-!
# What the rules of the calculator compute

The calculator computes with 64-bit integers, the values of trees are mathematical integers that
fit into 64 bits.  Both agree step by step:

* `compute_number`: a number has the value of its tree;
* `applyOperations_cons`: an operation on the value of a chain gives the value of the longer chain.
-/

namespace OrderedChoice.Calculator

theorem toInt64?_eq (n : Int) : toInt64? n = (checked n).map Int64.ofInt := by
  unfold toInt64? checked
  by_cases h : Int64.minValue.toInt ≤ n ∧ n ≤ Int64.maxValue.toInt
  · rw [if_pos h, if_pos (show Fits n from h)]
    rfl
  · rw [if_neg h, if_neg (show ¬ Fits n from h)]
    rfl

theorem toInt_ofInt {n : Int} (h : Fits n) : (Int64.ofInt n).toInt = n := by
  rw [fits_iff] at h
  exact Int64.toInt_ofInt_of_le h.1 (Int.lt_add_one_of_le h.2)

theorem ofInt_eq_zero {n : Int} (h : Fits n) : Int64.ofInt n = 0 ↔ n = 0 := by
  constructor
  · intro h0
    rw [← toInt_ofInt h, h0]
    rfl
  · rintro rfl
    rfl

theorem asInteger?_toValue (o : Option Int) : (toValue o).asInteger? = o.map Int64.ofInt := by
  cases o <;> rfl

theorem result_map (o : Option Int) : result (o.map Int64.ofInt) = toValue o := by
  cases o <;> rfl

/-! ### Numbers -/

theorem readInt?_digits (digits : Digits) :
    readInt? digits.chars = (readNat? digits.chars).map fun n : Nat => (n : Int) := by
  -- a sign is not a digit, so only the case of a numeral without a sign is left
  obtain ⟨cs, hne, hcs⟩ := digits
  cases cs with
  | nil => exact absurd rfl hne
  | cons c cs =>
    have hc := hcs c List.mem_cons_self
    unfold readInt?
    split
    · rename_i h
      cases h
      rw [(accepts_mark (by decide)).2] at hc
      cases hc
    · rename_i h
      cases h
      rw [(accepts_mark (by decide)).2] at hc
      cases hc
    · rfl

theorem readInt64?_digits (digits : Digits) :
    readInt64? digits.chars = digits.magnitude?.map Int64.ofInt := by
  unfold readInt64? Digits.magnitude?
  rw [readInt?_digits]
  cases readNat? digits.chars with
  | none => rfl
  | some n =>
    rw [Option.map_some, Option.bind_some, Option.bind_some]
    exact toInt64?_eq n

/-- A number has the value of its tree. -/
theorem compute_number (negative : Bool) (digits : Digits) :
    compute .number [signValue negative, .ofChars digits.chars] =
      (Tree.number negative digits).value := by
  have htext : (Value.ofChars digits.chars).text.toList = digits.chars := by
    rw [Value.ofChars, Value.text, String.toList_ofList]
  simp only [compute, List.getD_cons_succ, List.getD_cons_zero, htext, readInt64?_digits,
    Tree.value, Tree.value?]
  cases digits.magnitude? with
  | none => cases negative <;> rfl
  | some n =>
    cases negative with
    | true =>
      simp only [signValue, ↓reduceIte, Value.ofChars, Value.isNull, Bool.false_eq_true,
        Option.map_some, result, toValue, Int64.ofInt_neg]
    | false => rfl

/-! ### Operations -/

/-- An operation on values that fit gives the value that fits, if there is one. -/
theorem operate_eq {r : Rank} (op : Operator r) {a b : Int} (ha : Fits a) (hb : Fits b) :
    operate (String.ofList [op.char]) (Int64.ofInt a) (Int64.ofInt b) =
      (operation? op.char a b).map Int64.ofInt := by
  have hop : op.char ∈ ['+', '-', '*', '/'] := by
    cases r with
    | additive => exact List.mem_of_mem_take (i := 2) op.mem
    | multiplicative => exact List.mem_of_mem_drop (i := 2) op.mem
  simp only [List.mem_cons, List.not_mem_nil, or_false] at hop
  unfold operate
  rw [toInt_ofInt ha, toInt_ofInt hb]
  rcases hop with h | h | h | h
  · rw [h, if_pos (by decide)]
    exact toInt64?_eq _
  · rw [h, if_neg (by decide), if_pos (by decide)]
    exact toInt64?_eq _
  · rw [h, if_neg (by decide), if_neg (by decide), if_pos (by decide)]
    exact toInt64?_eq _
  · rw [h, if_neg (by decide), if_neg (by decide), if_neg (by decide), if_pos (by decide)]
    simp only [operation?]
    by_cases h0 : b = 0
    · rw [if_pos h0, if_pos ((ofInt_eq_zero hb).2 h0)]
      rfl
    · rw [if_neg h0, if_neg fun h => h0 ((ofInt_eq_zero hb).1 h)]
      exact toInt64?_eq _

/-- One more operation on the value of a chain gives the value of the longer chain. -/
theorem applyOperations_cons {r : Rank} (left : Tree (.chain r)) (before : Blanks)
    (op : Operator r) (after : Blanks) (right : Tree r.operand) (vs : List Value) :
    applyOperations (left.value?.map Int64.ofInt)
        (.list [.ofChars [op.char], right.value] :: vs) =
      applyOperations ((Tree.operation left before op after right).value?.map Int64.ofInt) vs := by
  simp only [applyOperations, applyOperation, Tree.value, asInteger?_toValue, Value.ofChars,
    Value.asString?, Tree.value?]
  congr 1
  cases hl : left.value? with
  | none => rfl
  | some a =>
    cases hr : right.value? with
    | none => rfl
    | some b => exact operate_eq op (Tree.fits_of_value? hl) (Tree.fits_of_value? hr)

end OrderedChoice.Calculator
