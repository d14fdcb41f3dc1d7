import OrderedChoice.Regex.CharSet

/-!
# Dialects of regular expressions

The syntax of regular expressions is one, but libraries differ in two points: which properties of
characters they have tables of, and how long and how deeply nested expressions they take.  A
`Dialect` says so.  Readers are given the dialect that they read.

`Dialect.bundled` has the tables of this library, and no limits.
-/

namespace OrderedChoice.Regex

/-- What the syntax leaves open. -/
structure Dialect where
  /-- The characters with a property, which is given by a name alone or by a name with a value. -/
  property? : List Char → Option (List Char) → Option CharSet
  /-- Whether a text stays within the limits on the size and the nesting of expressions. -/
  fits : List Char → Bool

/-- The property with a name, alone or with a value. -/
def bundledProperty? (name : List Char) : Option (List Char) → Option Unicode.Property
  | none => Unicode.Property.ofName? name
  | some value => Unicode.Property.ofNameAndValue? name value

/-- The properties that there are tables of here, and expressions of any size. -/
def Dialect.bundled : Dialect where
  property? name value? := (bundledProperty? name value?).map .property
  fits _ := true

end OrderedChoice.Regex
