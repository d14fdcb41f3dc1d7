import OrderedChoice.Json.Basic
import OrderedChoice.Text.Numeral

/-!
# Reading JSON

`Json.read` reads a JSON text strictly: no comments, no trailing commas, no leading zeros, no
controls inside strings, and nothing but blanks after the value.
-/

namespace OrderedChoice.Json

/-- Whether a character is a blank. -/
def isBlank (c : Char) : Bool := c == ' ' || c == '\n' || c == '\t' || c == '\r'

/-- A text without the blanks at its front. -/
def dropBlanks (cs : List Char) : List Char := cs.dropWhile isBlank

/-! ### Strings -/

/-- The number of four hexadecimal digits. -/
def hexNumber? (a b c d : Char) : Option Nat := do
  let a ← hexValue? a
  let b ← hexValue? b
  let c ← hexValue? c
  let d ← hexValue? d
  return 4096 * a + 256 * b + 16 * c + d

/-- The character that a letter after a backslash stands for. -/
def escaped? : Char → Option Char
  | '"' => some '"'
  | '\\' => some '\\'
  | '/' => some '/'
  | 'b' => some '\x08'
  | 'f' => some '\x0c'
  | 'n' => some '\n'
  | 'r' => some '\r'
  | 't' => some '\t'
  | _ => none

/-- Reads a string from behind its opening quote. -/
def readString : List Char → Option (List JsonUnit × List Char)
  | [] => none
  | '"' :: r => some ([], r)
  | '\\' :: 'u' :: a :: b :: c :: d :: r =>
    match hexNumber? a b c d with
    | some n => (readString r).map fun (us, rest) => (.escape n :: us, rest)
    | none => none
  | '\\' :: c :: r =>
    match escaped? c with
    | some c => (readString r).map fun (us, rest) => (.char c :: us, rest)
    | none => none
  | c :: r =>
    if c.toNat < 32 || c == '\\' then none
    else (readString r).map fun (us, rest) => (.char c :: us, rest)

/-! ### Numbers -/

/-- Reads digits. -/
def takeDigits : List Char → List Nat × List Char
  | [] => ([], [])
  | c :: r =>
    match digitValue? c with
    | some d =>
      let (ds, rest) := takeDigits r
      (d :: ds, rest)
    | none => ([], c :: r)

/-- Reads digits, at least one. -/
def readDigits (cs : List Char) : Option (List Nat × List Char) :=
  match takeDigits cs with
  | ([], _) => none
  | r => some r

/-- Reads the digits before the point: a zero stands alone. -/
def readWhole (cs : List Char) : Option (List Nat × List Char) :=
  match readDigits cs with
  | some (0 :: _ :: _, _) => none
  | r => r

/-- Reads a point with digits, if there is one. -/
def readFraction : List Char → Option (List Nat × List Char)
  | '.' :: r => readDigits r
  | cs => some ([], cs)

/-- Reads an exponent, if there is one. -/
def readExponent (cs : List Char) : Option (Option (Bool × List Nat) × List Char) :=
  let digits (negative : Bool) (r : List Char) : Option (Option (Bool × List Nat) × List Char) :=
    (readDigits r).map fun (ds, rest) => (some (negative, ds), rest)
  match cs with
  | c :: r =>
    if c == 'e' || c == 'E' then
      match r with
      | '+' :: r => digits false r
      | '-' :: r => digits true r
      | r => digits false r
    else some (none, c :: r)
  | [] => some (none, [])

/-- Reads a number. -/
def readNumber (cs : List Char) : Option (JsonNumber × List Char) := do
  let (negative, cs) := match cs with
    | '-' :: r => (true, r)
    | cs => (false, cs)
  let (whole, cs) ← readWhole cs
  let (fraction, cs) ← readFraction cs
  let (exponent, cs) ← readExponent cs
  return (⟨negative, whole, fraction, exponent⟩, cs)

/-! ### Values -/

mutual

/-- Reads a value. -/
def readValue : Nat → List Char → Option (Json × List Char)
  | 0, _ => none
  | n + 1, cs =>
    match dropBlanks cs with
    | 'n' :: 'u' :: 'l' :: 'l' :: r => some (.null, r)
    | 't' :: 'r' :: 'u' :: 'e' :: r => some (.bool true, r)
    | 'f' :: 'a' :: 'l' :: 's' :: 'e' :: r => some (.bool false, r)
    | '"' :: r => (readString r).map fun (us, rest) => (.string us, rest)
    | '[' :: r =>
      match dropBlanks r with
      | ']' :: r => some (.array [], r)
      | r => (readItems n r).map fun (items, rest) => (.array items, rest)
    | '\x7b' :: r =>
      match dropBlanks r with
      | '\x7d' :: r => some (.object [], r)
      | r => (readMembers n r).map fun (members, rest) => (.object members, rest)
    | cs => (readNumber cs).map fun (x, rest) => (.number x, rest)

/-- Reads the items of an array, at least one, and its closing bracket. -/
def readItems : Nat → List Char → Option (List Json × List Char)
  | 0, _ => none
  | n + 1, cs =>
    match readValue n cs with
    | none => none
    | some (v, rest) =>
      match dropBlanks rest with
      | ',' :: r => (readItems n r).map fun (vs, rest) => (v :: vs, rest)
      | ']' :: r => some ([v], r)
      | _ => none

/-- Reads the members of an object, at least one, and its closing brace. -/
def readMembers : Nat → List Char → Option (List (List JsonUnit × Json) × List Char)
  | 0, _ => none
  | n + 1, cs =>
    match dropBlanks cs with
    | '"' :: r =>
      match readString r with
      | none => none
      | some (key, rest) =>
        match dropBlanks rest with
        | ':' :: r =>
          match readValue n r with
          | none => none
          | some (v, rest) =>
            match dropBlanks rest with
            | ',' :: r => (readMembers n r).map fun (ms, rest) => ((key, v) :: ms, rest)
            | '\x7d' :: r => some ([(key, v)], r)
            | _ => none
        | _ => none
    | _ => none

end

/-- Reads a text that consists of one value. -/
def read (text : List Char) : Option Json :=
  match readValue (2 * text.length + 2) text with
  | some (v, rest) => if (dropBlanks rest).isEmpty then some v else none
  | none => none

end OrderedChoice.Json
