import OrderedChoice.Grammar.Symbol

/-!
# Reading symbols

References are written with colons: `:name` for an expression of the active grammar and
`:grammar:name` for one of an imported grammar, with a lookahead mark before and a quantifier
mark behind.  `Symbol.ofString` reads a reference where a text is one, and takes any other text
as a literal.
-/

namespace OrderedChoice.Symbol

/-- Whether a character may occur in a name. -/
def isNameChar (c : Char) : Bool := Unicode.isAlphanumeric c || c == '_' || c == '-'

/-- Whether a text is a name: at least one character, all of them letters, numbers, underscores
or hyphens. -/
def isName (cs : List Char) : Bool := !cs.isEmpty && cs.all isNameChar

/-- Takes a lookahead mark off the front. -/
def takeLookahead : List Char → Lookahead × List Char
  | '!' :: r => (.assert, r)
  | '&' :: r => (.lenient, r)
  | cs => (.consume, cs)

/-- Takes a quantifier mark off the end. -/
def takeQuantifier (cs : List Char) : List Char × Quantifier :=
  match splitLast cs with
  | some (body, '*') => (body, .zeroOrMore)
  | some (body, '+') => (body, .oneOrMore)
  | some (body, '?') => (body, .optional)
  | _ => (cs, .one)

/-- Reads one name, or two with a colon between. -/
def readNames (cs : List Char) : Option Reference :=
  match splitAtChar ':' cs with
  | none => if isName cs then some ⟨none, String.ofList cs⟩ else none
  | some (g, e) =>
    if isName g && isName e then some ⟨some (String.ofList g), String.ofList e⟩ else none

/-- Reads a reference with its marks. -/
def readReference (cs : List Char) : Option Symbol :=
  match takeLookahead cs with
  | (l, ':' :: r) =>
    let (body, q) := takeQuantifier r
    (readNames body).map fun ref => ⟨.reference ref, q, l⟩
  | _ => none

/-- The symbol that a text stands for: a reference if it is written as one, else a literal. -/
def ofString (text : String) : Symbol := (readReference text.toList).getD (literal text)

end OrderedChoice.Symbol
