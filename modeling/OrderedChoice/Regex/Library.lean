import OrderedChoice.Regex.Reader

/-!
# Libraries of regular expressions

A `Library` compiles the text of an expression and searches for what it has compiled.  What is in it
is its own affair; `Library.bundled` is the one of the readers and the search of this project.
-/

namespace OrderedChoice.Regex

/-- A library of regular expressions. -/
structure Library where
  /-- What the text of an expression is compiled to. -/
  Compiled : Type
  /-- The expression with a text, or what is said of a text that is none. -/
  compile : List Char → Except String Compiled
  /-- Whether an expression matches somewhere in a text. -/
  isMatch : Compiled → List Char → Bool

/-- What is said of a text that is no expression. -/
def malformed : String := "not a regular expression"

/-- The expressions of a dialect, searched for as they stand. -/
def Library.ofDialect (d : Dialect) : Library where
  Compiled := Regex
  compile text :=
    match read d text with
    | some r => if d.fits text then .ok r else .error malformed
    | none => .error malformed
  isMatch := isFoundIn

/-- The library of this project. -/
def Library.bundled : Library := .ofDialect .bundled

end OrderedChoice.Regex
