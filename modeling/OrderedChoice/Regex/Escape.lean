import OrderedChoice.Regex.Dialect
import OrderedChoice.Regex.Flags
import OrderedChoice.Text.Numeral
import OrderedChoice.Text.Split

/-!
# Escapes

What may follow a backslash: a code point in hexadecimal, a character property, a class, a test,
a control character, or punctuation that stands for itself.  Letters and digits without a
meaning are refused.
-/

namespace OrderedChoice.Regex

/-- What an escape or a single character stands for. -/
inductive Primitive where
  /-- A character, and whether it was given as two hexadecimal digits, that is as a byte. -/
  | char (c : Char) (isByte : Bool)
  | set (s : CharSet)
  | look (l : Look)

/-- The character with a code point, if it has one. -/
def charOfCode? (n : Nat) : Option Char :=
  if n.isValidChar then some (Char.ofNat n) else none

variable (d : Dialect) (f : Flags)

/-! ### Code points -/

/-- Reads a fixed number of hexadecimal digits. -/
def readHexDigits : Nat → Nat → List Char → Option (Nat × List Char)
  | 0, acc, cs => some (acc, cs)
  | n + 1, acc, cs =>
    match cs with
    | [] => none
    | c :: r =>
      match hexValue? c with
      | some d => readHexDigits n (16 * acc + d) (f.skip r)
      | none => none

/-- Reads up to a closing brace; blanks do not count. -/
def readBraced : Nat → List Char → Option (List Char × List Char)
  | 0, _ => none
  | n + 1, cs =>
    match f.skip cs with
    | [] => none
    | '\x7d' :: r => some ([], r)
    | c :: r => (readBraced n r).map fun (name, rest) => (c :: name, rest)

/-- The number that hexadecimal digits stand for; there must be one. -/
def hexNumber? : List Char → Option Nat
  | [] => none
  | cs => cs.foldlM (fun acc c => (hexValue? c).map (16 * acc + ·)) 0

/-- Reads the code point after `\x`, `\u` or `\U`, which have two, four and eight digits, or any
number in braces. -/
def readCodePoint (digits : Nat) (cs : List Char) : Option (Primitive × List Char) :=
  match f.skip cs with
  | [] => none
  | '\x7b' :: r =>
    match readBraced f (r.length + 1) r with
    | some (name, rest) =>
      ((hexNumber? name).bind charOfCode?).map fun c => (.char c false, f.skip rest)
    | none => none
  | cs =>
    match readHexDigits f digits 0 cs with
    | some (n, rest) => (charOfCode? n).map fun c => (.char c (digits == 2), rest)
    | none => none

/-! ### Properties -/

/-- The text before and after the first `!=`. -/
def splitUnequal : List Char → Option (List Char × List Char)
  | '!' :: '=' :: r => some ([], r)
  | [] => none
  | c :: r => (splitUnequal r).map fun (a, b) => (c :: a, b)

/-- The property that is named between braces, alone or with a value after `!=`, `:` or `=`. -/
def namedProperty? (name : List Char) : Option CharSet :=
  match (splitUnequal name).or ((splitAtChar ':' name).or (splitAtChar '=' name)) with
  | some (key, value) => d.property? key (some value)
  | none => d.property? name none

/-- Reads the property after `\p` or `\P`: one letter, or a name in braces. -/
def readProperty (negated : Bool) (cs : List Char) : Option (Primitive × List Char) :=
  let found := match f.skip cs with
    | [] => none
    | '\x7b' :: r =>
      match readBraced f (r.length + 1) r with
      | some (name, rest) => (namedProperty? d name).map (·, rest)
      | none => none
    | c :: r => if c == '\\' then none else (d.property? [c] none).map (·, r)
  match found with
  | some (s, rest) =>
    if f.unicode then (f.finish negated s).map fun s => (.set s, rest) else none
  | none => none

/-! ### Word boundaries -/

/-- Whether a character may occur in the name of a word boundary. -/
def isBoundaryNameChar (c : Char) : Bool := c.isAlpha || c == '-'

/-- Reads the name of a word boundary up to the closing brace. -/
def readBoundaryName : Nat → List Char → Option (List Char × List Char)
  | 0, _ => none
  | n + 1, cs =>
    match cs with
    | '\x7d' :: r => some ([], r)
    | c :: r =>
      if isBoundaryNameChar c then
        (readBoundaryName n (f.skip r)).map fun (name, rest) => (c :: name, rest)
      else none
    | [] => none

/-- The word boundary with a name. -/
def namedBoundary? (name : List Char) : Option Look :=
  match String.ofList name with
  | "start" => some (.wordStart f.unicode)
  | "end" => some (.wordEnd f.unicode)
  | "start-half" => some (.wordStartHalf f.unicode)
  | "end-half" => some (.wordEndHalf f.unicode)
  | _ => none

/-- Reads what follows `\b`: a brace with a name in it makes it a special boundary, any other
brace is left to be read as a repetition. -/
def readBoundary (cs : List Char) : Option (Primitive × List Char) :=
  match cs with
  | '\x7b' :: r =>
    match f.skip r with
    | [] => none
    | c :: r' =>
      if isBoundaryNameChar c then
        match readBoundaryName f (r'.length + 2) (c :: r') with
        | some (name, rest) => (namedBoundary? f name).map fun l => (.look l, rest)
        | none => none
      else some (.look (.wordBoundary f.unicode), cs)
  | cs => some (.look (.wordBoundary f.unicode), cs)

/-! ### All escapes -/

/-- Whether a character stands for itself after a backslash: ASCII that is neither a letter nor
a digit, but for the angle brackets, which are tests. -/
def isEscapable (c : Char) : Bool :=
  c.toNat < 128 && !c.isAlphanum && c != '<' && c != '>'

/-- A class, complemented if it is negated. -/
def readClass (negated : Bool) (s : CharSet) (r : List Char) : Option (Primitive × List Char) :=
  (f.permit (if negated then s.compl else s)).map fun s => (.set s, r)

/-- Reads what follows a backslash. -/
def readEscape : List Char → Option (Primitive × List Char)
  | [] => none
  | 'x' :: r => readCodePoint f 2 r
  | 'u' :: r => readCodePoint f 4 r
  | 'U' :: r => readCodePoint f 8 r
  | 'p' :: r => readProperty d f false r
  | 'P' :: r => readProperty d f true r
  | 'd' :: r => readClass f false f.digits r
  | 's' :: r => readClass f false f.spaces r
  | 'w' :: r => readClass f false f.words r
  | 'D' :: r => readClass f true f.digits r
  | 'S' :: r => readClass f true f.spaces r
  | 'W' :: r => readClass f true f.words r
  | 'a' :: r => some (.char '\x07' false, r)
  | 'f' :: r => some (.char '\x0c' false, r)
  | 't' :: r => some (.char '\t' false, r)
  | 'n' :: r => some (.char '\n' false, r)
  | 'r' :: r => some (.char '\r' false, r)
  | 'v' :: r => some (.char '\x0b' false, r)
  | 'A' :: r => some (.look .textStart, r)
  | 'z' :: r => some (.look .textEnd, r)
  | 'b' :: r => readBoundary f r
  | 'B' :: r => some (.look (.notWordBoundary f.unicode), r)
  | '<' :: r => some (.look (.wordStart f.unicode), r)
  | '>' :: r => some (.look (.wordEnd f.unicode), r)
  | c :: r => if isEscapable c then some (.char c false, r) else none

namespace Primitive

/-- Whether a character was given as a byte that is no character without Unicode. -/
def isLoneByte (c : Char) (isByte : Bool) : Bool := isByte && !f.unicode && 128 ≤ c.toNat

/-- The primitive as an expression. -/
def toRegex? : Primitive → Option Regex
  | char c isByte => if isLoneByte f c isByte then none else some (f.literal c)
  | set s => some (.set s)
  | look l => some (.look l)

/-- The primitive as a member of a bracket class: tests are refused there. -/
def toSet? : Primitive → Option CharSet
  | char c _ => if f.unicode || c.toNat < 128 then some (.single c) else none
  | set s => some s
  | look _ => none

/-- The primitive as an end of a range, which must be a character. -/
def toChar? : Primitive → Option Char
  | char c _ => if f.unicode || c.toNat < 128 then some c else none
  | _ => none

end Primitive

end OrderedChoice.Regex
