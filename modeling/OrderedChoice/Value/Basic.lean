import OrderedChoice.Number.Layout
import OrderedChoice.Text.Fields
import OrderedChoice.Text.Numeral

/-!
# Values

A `Value` is what symbols, rules and transforms produce.  Literals and patterns give strings,
repeated references give lists, symbols that are only looked at give `null`, and transforms may
give anything.

* `Value.inspect` writes a value so that its shape shows, and `Value.display` as plain text
  where it has one;
* `Value.text` is the text that a value was matched from, as far as it still shows;
* `Value.toInteger` reads that text as a number.
-/

namespace OrderedChoice

/-- The result of a symbol, a rule or a transform.  The entries of a map have distinct keys and
stand in the order in which they were put in. -/
inductive Value where
  | integer (i : Int64)
  | float (x : Binary64)
  | string (s : String)
  | boolean (b : Bool)
  | list (items : List Value)
  | map (entries : List (String × Value))
  | null

namespace Value

instance : Inhabited Value := ⟨null⟩

/-! ### Parts -/

/-- Whether the value is `null`. -/
def isNull : Value → Bool
  | null => true
  | _ => false

/-- The string, if the value is one. -/
def asString? : Value → Option String
  | string s => some s
  | _ => none

/-- The integer, if the value is one. -/
def asInteger? : Value → Option Int64
  | integer i => some i
  | _ => none

/-- The items, if the value is a list. -/
def asList? : Value → Option (List Value)
  | list items => some items
  | _ => none

/-! ### Written forms -/

/-- An integer in decimal digits. -/
def integerText (i : Int64) : String := intText i.toInt

mutual

/-- The value with the names of its constructors and with strings quoted. -/
def inspect : Value → String
  | integer i => "Integer(" ++ integerText i ++ ")"
  | float x => "Float(" ++ FloatLayout.inspected.write x ++ ")"
  | string s => "String(" ++ quoted s ++ ")"
  | boolean b => "Boolean(" ++ flagText b ++ ")"
  | list items => "List([" ++ ", ".intercalate (inspectItems items) ++ "])"
  | map entries => "Map(\x7b" ++ ", ".intercalate (inspectEntries entries) ++ "\x7d)"
  | null => "Null"

/-- Each item inspected. -/
def inspectItems : List Value → List String
  | [] => []
  | v :: vs => inspect v :: inspectItems vs

/-- Each entry inspected, key first. -/
def inspectEntries : List (String × Value) → List String
  | [] => []
  | (k, v) :: es => (quoted k ++ ": " ++ inspect v) :: inspectEntries es

end

/-- Strings, numbers and Booleans as plain text, `null` by its name, all else inspected. -/
def display : Value → String
  | string s => s
  | integer i => integerText i
  | float x => FloatLayout.plain.write x
  | boolean b => flagText b
  | null => "null"
  | v => inspect v

/-! ### Text -/

mutual

/-- The value flattened into text: the texts of a list joined, nothing for `null`, all else as
displayed. -/
def text : Value → String
  | list items => textOfItems items
  | null => ""
  | string s => s
  | integer i => integerText i
  | float x => FloatLayout.plain.write x
  | boolean b => flagText b
  | map entries => inspect (map entries)

/-- The texts of items, joined. -/
def textOfItems : List Value → String
  | [] => ""
  | v :: vs => text v ++ textOfItems vs

end

/-- A text without white space at its ends. -/
def trimmed (cs : List Char) : List Char :=
  ((cs.dropWhile Unicode.isWhiteSpace).reverse.dropWhile Unicode.isWhiteSpace).reverse

/-- The integer itself, or the number that the trimmed text is a numeral of. -/
def toInteger : Value → Option Int64
  | integer i => some i
  | v => readInt64? (trimmed (text v).toList)

/-- A value for an optional one, `null` when there is none. -/
def ofOption (f : α → Value) : Option α → Value
  | some a => f a
  | none => null

/-- The string of characters. -/
def ofChars (cs : List Char) : Value := string (String.ofList cs)

end Value

end OrderedChoice
