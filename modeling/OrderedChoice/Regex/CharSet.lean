import OrderedChoice.Unicode.CaseFold
import OrderedChoice.Unicode.Property

/-!
# Sets of characters

The sets that bracket classes and class escapes of a regular expression stand for, built from
ranges and character properties.  `CharSet.contains` is their meaning.
-/

namespace OrderedChoice

/-- Which characters count as the same when case is ignored. -/
inductive CaseRule where
  | unicode
  | ascii
  deriving DecidableEq, Repr

/-- The code points that count as the same as `n`. -/
def CaseRule.variants : CaseRule → Nat → List Nat
  | unicode, n => Unicode.caseVariants n
  | ascii, n => Unicode.asciiCaseVariants n

/-- A set of code points. -/
inductive CharSet where
  | empty
  | range (first last : Nat)
  | property (p : Unicode.Property)
  | union (a b : CharSet)
  | inter (a b : CharSet)
  | diff (a b : CharSet)
  | symmDiff (a b : CharSet)
  | compl (a : CharSet)
  /-- What differs from a member of `a` in case only. -/
  | caseClosed (rule : CaseRule) (a : CharSet)
  deriving DecidableEq, Repr

namespace CharSet

/-- Whether a code point is in the set. -/
def contains : CharSet → Nat → Bool
  | empty, _ => false
  | range first last, n => first ≤ n && n ≤ last
  | property p, n => p.contains n
  | union a b, n => a.contains n || b.contains n
  | inter a b, n => a.contains n && b.contains n
  | diff a b, n => a.contains n && !b.contains n
  | symmDiff a b, n => a.contains n != b.contains n
  | compl a, n => !a.contains n
  | caseClosed rule a, n => (rule.variants n).any a.contains

/-- The set of one character. -/
def single (c : Char) : CharSet := range c.toNat c.toNat

/-- The union of ranges. -/
def ofRanges : List (Nat × Nat) → CharSet
  | [] => empty
  | (first, last) :: rs => union (range first last) (ofRanges rs)

/-- Whether no byte from 128 on is in the set. -/
def hasOnlyAsciiBytes (a : CharSet) : Bool := (List.range 128).all fun n => !a.contains (128 + n)

/-! ### Named ASCII classes -/

/-- The ranges of the named ASCII classes. -/
def asciiClass? : String → Option (List (Nat × Nat))
  | "alnum" => some [(0x30, 0x39), (0x41, 0x5A), (0x61, 0x7A)]
  | "alpha" => some [(0x41, 0x5A), (0x61, 0x7A)]
  | "ascii" => some [(0x00, 0x7F)]
  | "blank" => some [(0x09, 0x09), (0x20, 0x20)]
  | "cntrl" => some [(0x00, 0x1F), (0x7F, 0x7F)]
  | "digit" => some [(0x30, 0x39)]
  | "graph" => some [(0x21, 0x7E)]
  | "lower" => some [(0x61, 0x7A)]
  | "print" => some [(0x20, 0x7E)]
  | "punct" => some [(0x21, 0x2F), (0x3A, 0x40), (0x5B, 0x60), (0x7B, 0x7E)]
  | "space" => some [(0x09, 0x0D), (0x20, 0x20)]
  | "upper" => some [(0x41, 0x5A)]
  | "word" => some [(0x30, 0x39), (0x41, 0x5A), (0x5F, 0x5F), (0x61, 0x7A)]
  | "xdigit" => some [(0x30, 0x39), (0x41, 0x46), (0x61, 0x66)]
  | _ => none

/-- The ASCII digits. -/
def asciiDigit : CharSet := ofRanges [(0x30, 0x39)]

/-- ASCII white space. -/
def asciiSpace : CharSet := ofRanges [(0x09, 0x0D), (0x20, 0x20)]

/-- The ASCII letters and digits and the underscore. -/
def asciiWord : CharSet := ofRanges [(0x30, 0x39), (0x41, 0x5A), (0x5F, 0x5F), (0x61, 0x7A)]

end CharSet

end OrderedChoice
