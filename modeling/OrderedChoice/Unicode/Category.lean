import OrderedChoice.Unicode.Letter
import OrderedChoice.Unicode.Mark
import OrderedChoice.Unicode.Numeral
import OrderedChoice.Unicode.Punctuation
import OrderedChoice.Unicode.Separator
import OrderedChoice.Unicode.Sign

/-!
# General categories

Every code point has exactly one general category.  All but `unassigned` are listed in tables;
`unassigned` holds what no table lists.

* `Category.contains` tells whether a code point is in a category;
* `Category.ofAbbreviation?` reads the usual short names.
-/

namespace OrderedChoice.Unicode

/-- The general categories. -/
inductive Category where
  | uppercaseLetter | lowercaseLetter | titlecaseLetter | modifierLetter | otherLetter
  | nonspacingMark | spacingMark | enclosingMark
  | decimalNumber | letterNumber | otherNumber
  | connectorPunctuation | dashPunctuation | openPunctuation | closePunctuation
  | initialPunctuation | finalPunctuation | otherPunctuation
  | mathSymbol | currencySymbol | modifierSymbol | otherSymbol
  | spaceSeparator | lineSeparator | paragraphSeparator
  | control | format | surrogate | privateUse | unassigned
  deriving DecidableEq, Repr

namespace Category

/-- The code points of a category, but for those that are not assigned. -/
def runs : Category → List Run
  | uppercaseLetter => uppercaseLetterRuns
  | lowercaseLetter => lowercaseLetterRuns
  | titlecaseLetter => titlecaseLetterRuns
  | modifierLetter => modifierLetterRuns
  | otherLetter => otherLetterRuns
  | nonspacingMark => nonspacingMarkRuns
  | spacingMark => spacingMarkRuns
  | enclosingMark => enclosingMarkRuns
  | decimalNumber => decimalNumberRuns
  | letterNumber => letterNumberRuns
  | otherNumber => otherNumberRuns
  | connectorPunctuation => connectorPunctuationRuns
  | dashPunctuation => dashPunctuationRuns
  | openPunctuation => openPunctuationRuns
  | closePunctuation => closePunctuationRuns
  | initialPunctuation => initialPunctuationRuns
  | finalPunctuation => finalPunctuationRuns
  | otherPunctuation => otherPunctuationRuns
  | mathSymbol => mathSymbolRuns
  | currencySymbol => currencySymbolRuns
  | modifierSymbol => modifierSymbolRuns
  | otherSymbol => otherSymbolRuns
  | spaceSeparator => spaceSeparatorRuns
  | lineSeparator => lineSeparatorRuns
  | paragraphSeparator => paragraphSeparatorRuns
  | control => controlRuns
  | format => formatRuns
  | surrogate => surrogateRuns
  | privateUse => privateUseRuns
  | unassigned => []

/-- The five categories of letters. -/
def letters : List Category :=
  [uppercaseLetter, lowercaseLetter, titlecaseLetter, modifierLetter, otherLetter]

/-- The three categories of marks. -/
def marks : List Category := [nonspacingMark, spacingMark, enclosingMark]

/-- The three categories of numbers. -/
def numbers : List Category := [decimalNumber, letterNumber, otherNumber]

/-- The seven categories of punctuation. -/
def punctuation : List Category :=
  [connectorPunctuation, dashPunctuation, openPunctuation, closePunctuation,
    initialPunctuation, finalPunctuation, otherPunctuation]

/-- The four categories of signs. -/
def signs : List Category := [mathSymbol, currencySymbol, modifierSymbol, otherSymbol]

/-- The three categories of separators. -/
def separators : List Category := [spaceSeparator, lineSeparator, paragraphSeparator]

/-- The categories of assigned code points that have no picture. -/
def invisible : List Category := [control, format, surrogate, privateUse]

/-- All categories whose code points the tables list. -/
def assigned : List Category :=
  letters ++ marks ++ numbers ++ punctuation ++ signs ++ separators ++ invisible

/-- Whether a code point is in the category. -/
def contains (k : Category) (n : Nat) : Bool :=
  match k with
  | unassigned => !assigned.any fun k => inRuns k.runs n
  | k => inRuns k.runs n

/-- The category with a two-letter abbreviation, given in lower case. -/
def ofAbbreviation? : String → Option Category
  | "lu" => some uppercaseLetter
  | "ll" => some lowercaseLetter
  | "lt" => some titlecaseLetter
  | "lm" => some modifierLetter
  | "lo" => some otherLetter
  | "mn" => some nonspacingMark
  | "mc" => some spacingMark
  | "me" => some enclosingMark
  | "nd" => some decimalNumber
  | "nl" => some letterNumber
  | "no" => some otherNumber
  | "pc" => some connectorPunctuation
  | "pd" => some dashPunctuation
  | "ps" => some openPunctuation
  | "pe" => some closePunctuation
  | "pi" => some initialPunctuation
  | "pf" => some finalPunctuation
  | "po" => some otherPunctuation
  | "sm" => some mathSymbol
  | "sc" => some currencySymbol
  | "sk" => some modifierSymbol
  | "so" => some otherSymbol
  | "zs" => some spaceSeparator
  | "zl" => some lineSeparator
  | "zp" => some paragraphSeparator
  | "cc" => some control
  | "cf" => some format
  | "cs" => some surrogate
  | "co" => some privateUse
  | "cn" => some unassigned
  | _ => none

end Category

end OrderedChoice.Unicode
