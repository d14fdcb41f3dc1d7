import OrderedChoice.Value.Basic

/-!
# Equality of values

`Value.equal` compares values as data: numbers by `Binary64.numEq`, so that a value which holds
no number differs from itself, and maps without regard to the order of their entries.
-/

namespace OrderedChoice.Value

mutual

/-- Equality of data. -/
def equal : Value → Value → Bool
  | integer i, integer j => i == j
  | float x, float y => x.numEq y
  | string s, string t => s == t
  | boolean a, boolean b => a == b
  | list xs, list ys => equalItems xs ys
  | map xs, map ys => xs.length == ys.length && equalEntries xs ys
  | null, null => true
  | _, _ => false

/-- Equality item by item. -/
def equalItems : List Value → List Value → Bool
  | [], [] => true
  | x :: xs, y :: ys => equal x y && equalItems xs ys
  | _, _ => false

/-- Whether every entry has an equal one under its key. -/
def equalEntries : List (String × Value) → List (String × Value) → Bool
  | [], _ => true
  | (k, x) :: es, ys =>
    (match ys.lookup k with
      | some y => equal x y
      | none => false) && equalEntries es ys

end

end OrderedChoice.Value
