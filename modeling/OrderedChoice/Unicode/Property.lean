import OrderedChoice.Unicode.Category
import OrderedChoice.Unicode.Property.Runs
import OrderedChoice.Unicode.Script

/-!
# Character properties

A `Property` is a set of code points with a name: a general category or a group of them, a
script, or one of the binary properties.

* `Property.contains` tells whether a code point has the property;
* `Property.ofName?` and `Property.ofNameAndValue?` read the names of the properties that there are
  tables of; they compare names without regard to case, blanks, hyphens and underscores;
* `isWhiteSpace`, `isAlphabetic`, `isAlphanumeric` and `isPrintable` are the classes of
  characters that the rest of the library asks for.
-/

namespace OrderedChoice.Unicode

/-- A named set of code points. -/
inductive Property where
  | any
  | ascii
  | assigned
  | categories (ks : List Category)
  | script (s : Script)
  | alphabetic
  | lowercase
  | uppercase
  | whiteSpace
  | joinControl
  | graphemeExtend
  /-- What counts as part of a word: letters, marks, digits, connectors and joiners. -/
  | word
  deriving DecidableEq, Repr

namespace Property

/-- The decimal digits of all scripts. -/
def digit : Property := categories [.decimalNumber]

/-- Whether a code point is in one of the listed general categories. -/
def inCategories (ks : List Category) (n : Nat) : Bool := ks.any (·.contains n)

/-- Whether a code point is alphabetic. -/
def isAlphabetic (n : Nat) : Bool :=
  inCategories (Category.letters ++ [.letterNumber]) n || inRuns otherAlphabeticRuns n

/-- Whether a code point has the property. -/
def contains : Property → Nat → Bool
  | any, _ => true
  | ascii, n => n < 128
  | assigned, n => !Category.unassigned.contains n
  | categories ks, n => inCategories ks n
  | script s, n => inRuns s.runs n
  | alphabetic, n => isAlphabetic n
  | lowercase, n => Category.lowercaseLetter.contains n || inRuns otherLowercaseRuns n
  | uppercase, n => Category.uppercaseLetter.contains n || inRuns otherUppercaseRuns n
  | whiteSpace, n => inRuns whiteSpaceRuns n
  | joinControl, n => n == 0x200C || n == 0x200D
  | graphemeExtend, n =>
    inCategories [.nonspacingMark, .enclosingMark] n || inRuns otherGraphemeExtendRuns n
  | word, n =>
    isAlphabetic n || inCategories (Category.marks ++ [.decimalNumber, .connectorPunctuation]) n
      || n == 0x200C || n == 0x200D

/-! ### Names -/

/-- A name with case, blanks, hyphens, underscores and characters beyond ASCII taken away. -/
def foldedName (name : List Char) : String :=
  String.ofList <| (name.filter fun c => c.val < 128 && !(c == ' ' || c == '_' || c == '-')).map
    Char.toLower

/-- A folded name without a leading `is`, which is kept in `isc`, a name of its own. -/
def plainName : List Char → String
  | i :: s :: r =>
    if (i == 'i' || i == 'I') && (s == 's' || s == 'S') then
      if foldedName r = "c" then "isc" else foldedName r
    else foldedName (i :: s :: r)
  | name => foldedName name

/-- The general categories that a plain name stands for. -/
def categoriesOfName? : String → Option (List Category)
  | "l" | "letter" => some Category.letters
  | "lc" | "casedletter" => some [.uppercaseLetter, .lowercaseLetter, .titlecaseLetter]
  | "m" | "mark" | "combiningmark" => some Category.marks
  | "n" | "number" => some Category.numbers
  | "p" | "punct" | "punctuation" => some Category.punctuation
  | "s" | "symbol" => some Category.signs
  | "z" | "separator" => some Category.separators
  | "c" | "other" => some (.unassigned :: Category.invisible)
  | "uppercaseletter" => some [.uppercaseLetter]
  | "lowercaseletter" => some [.lowercaseLetter]
  | "titlecaseletter" => some [.titlecaseLetter]
  | "modifierletter" => some [.modifierLetter]
  | "otherletter" => some [.otherLetter]
  | "nonspacingmark" => some [.nonspacingMark]
  | "spacingmark" => some [.spacingMark]
  | "enclosingmark" => some [.enclosingMark]
  | "decimalnumber" | "digit" => some [.decimalNumber]
  | "letternumber" => some [.letterNumber]
  | "othernumber" => some [.otherNumber]
  | "connectorpunctuation" => some [.connectorPunctuation]
  | "dashpunctuation" => some [.dashPunctuation]
  | "openpunctuation" => some [.openPunctuation]
  | "closepunctuation" => some [.closePunctuation]
  | "initialpunctuation" => some [.initialPunctuation]
  | "finalpunctuation" => some [.finalPunctuation]
  | "otherpunctuation" => some [.otherPunctuation]
  | "mathsymbol" => some [.mathSymbol]
  | "currencysymbol" => some [.currencySymbol]
  | "modifiersymbol" => some [.modifierSymbol]
  | "othersymbol" => some [.otherSymbol]
  | "spaceseparator" => some [.spaceSeparator]
  | "lineseparator" => some [.lineSeparator]
  | "paragraphseparator" => some [.paragraphSeparator]
  | "control" | "cntrl" => some [.control]
  | "format" => some [.format]
  | "privateuse" => some [.privateUse]
  | "unassigned" => some [.unassigned]
  | "cs" => none
  | name => (Category.ofAbbreviation? name).map fun k => [k]

/-- The set that a plain name stands for as a value of the general category. -/
def generalCategory? : String → Option Property
  | "any" => some any
  | "ascii" => some ascii
  | "assigned" => some assigned
  | name => (categoriesOfName? name).map categories

/-- The binary property with a plain name. -/
def binary? : String → Option Property
  | "alpha" | "alphabetic" => some alphabetic
  | "lower" | "lowercase" => some lowercase
  | "upper" | "uppercase" => some uppercase
  | "space" | "wspace" | "whitespace" => some whiteSpace
  | "joinc" | "joincontrol" => some joinControl
  | "grext" | "graphemeextend" => some graphemeExtend
  | _ => none

/-- The property that a single name stands for: a binary property, a general category or a
script, looked for in this order. -/
def ofName? (name : List Char) : Option Property :=
  let n := plainName name
  (binary? n).or ((generalCategory? n).or ((Script.ofName? n).map script))

/-- The property that a name with a value stands for. -/
def ofNameAndValue? (name value : List Char) : Option Property :=
  let v := plainName value
  match plainName name with
  | "gc" | "generalcategory" => generalCategory? v
  | "sc" | "script" => (Script.ofName? v).map script
  | _ => none

end Property

/-! ### Classes of characters -/

/-- Whether a character is white space. -/
def isWhiteSpace (c : Char) : Bool := Property.whiteSpace.contains c.toNat

/-- Whether a character is alphabetic. -/
def isAlphabetic (c : Char) : Bool := Property.alphabetic.contains c.toNat

/-- Whether a character is alphabetic or a number of any kind. -/
def isAlphanumeric (c : Char) : Bool :=
  isAlphabetic c || Property.inCategories Category.numbers c.toNat

/-- Whether a character has a picture of its own: it is assigned, no separator other than the
blank, and neither a control nor a formatting nor a private character. -/
def isPrintable (c : Char) : Bool :=
  c == ' ' || Property.inCategories
    (Category.letters ++ Category.marks ++ Category.numbers ++ Category.punctuation
      ++ Category.signs) c.toNat

/-- Whether a character attaches to the one before it. -/
def extendsGrapheme (c : Char) : Bool := Property.graphemeExtend.contains c.toNat

end OrderedChoice.Unicode
