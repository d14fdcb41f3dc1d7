import OrderedChoice.Text.Quoted

/-!
# Inspected data

How data is written so that its shape shows: the name of a constructor with its fields in
braces, `None` or `Some(…)` for what may be missing, and Booleans in words.
-/

namespace OrderedChoice

/-- A constructor with named fields. -/
def inspectFields (name : String) (fields : List (String × String)) : String :=
  name ++ " \x7b " ++ ", ".intercalate (fields.map fun (k, v) => k ++ ": " ++ v) ++ " \x7d"

/-- Something that may be missing. -/
def inspectOption : Option String → String
  | some s => "Some(" ++ s ++ ")"
  | none => "None"

/-- A Boolean in words. -/
def flagText : Bool → String
  | true => "true"
  | false => "false"

end OrderedChoice
