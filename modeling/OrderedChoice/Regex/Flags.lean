import OrderedChoice.Regex.Basic

/-!
# Flags and blanks

How an expression is read depends on flags that a group may set for its rest: whether case is
ignored, what `^`, `$` and `.` mean, whether classes follow Unicode or ASCII, and whether blanks
and comments are skipped.
-/

namespace OrderedChoice.Regex

/-- The settings under which a part of an expression is read. -/
structure Flags where
  ignoreCase : Bool
  multiLine : Bool
  dotNewline : Bool
  unicode : Bool
  crlf : Bool
  skipBlanks : Bool
  deriving DecidableEq, Repr

/-- Removes white space, and comments from `#` to the end of the line, from the front. -/
def dropBlanks : Bool → List Char → List Char
  | _, [] => []
  | true, c :: cs => dropBlanks (c != '\n') cs
  | false, c :: cs =>
    if Unicode.isWhiteSpace c then dropBlanks false cs
    else if c == '#' then dropBlanks true cs
    else c :: cs

namespace Flags

/-- The settings at the start of an expression. -/
def initial : Flags := ⟨false, false, false, true, false, false⟩

variable (f : Flags)

/-- The text without the blanks at its front, if blanks are to be skipped. -/
def skip (cs : List Char) : List Char := if f.skipBlanks then dropBlanks false cs else cs

/-- The next character that counts; it does not look past the start of a comment for another. -/
def peek (cs : List Char) : Option Char :=
  if f.skipBlanks then
    match cs.dropWhile Unicode.isWhiteSpace with
    | '#' :: r => (r.dropWhile Unicode.isWhiteSpace).head?
    | r => r.head?
  else cs.head?

/-- The settings with one flag turned on or off, given by its letter.  Which of two matches a
repetition prefers is a flag too, but makes no difference here. -/
def set? (letter : Char) (on : Bool) : Option Flags :=
  match letter with
  | 'i' => some { f with ignoreCase := on }
  | 'm' => some { f with multiLine := on }
  | 's' => some { f with dotNewline := on }
  | 'U' => some f
  | 'u' => some { f with unicode := on }
  | 'R' => some { f with crlf := on }
  | 'x' => some { f with skipBlanks := on }
  | _ => none

/-- The rule by which case is ignored. -/
def caseRule : CaseRule := if f.unicode then .unicode else .ascii

/-- A set with all case variants of its members, if case is ignored. -/
def closeCase (s : CharSet) : CharSet := if f.ignoreCase then .caseClosed f.caseRule s else s

/-- A set that may be used: without Unicode it must not hold bytes that are no characters. -/
def permit (s : CharSet) : Option CharSet :=
  if f.unicode || s.hasOnlyAsciiBytes then some s else none

/-- A finished class: closed under case, then complemented if it is negated. -/
def finish (negated : Bool) (s : CharSet) : Option CharSet :=
  f.permit (if negated then (f.closeCase s).compl else f.closeCase s)

/-- A character as an expression of its own. -/
def literal (c : Char) : Regex :=
  .set (if f.unicode || c.toNat < 128 then f.closeCase (.single c) else .single c)

/-- The set of `.`. -/
def dot : Option CharSet :=
  if !f.unicode then none
  else if f.dotNewline then some CharSet.empty.compl
  else if f.crlf then some ((CharSet.union (.single '\n') (.single '\r')).compl)
  else some (CharSet.single '\n').compl

/-- The test of `^`. -/
def caret : Look := if f.multiLine then .lineStart f.crlf else .textStart

/-- The test of `$`. -/
def dollar : Look := if f.multiLine then .lineEnd f.crlf else .textEnd

/-- The digits of `\d`. -/
def digits : CharSet := if f.unicode then .property .digit else .asciiDigit

/-- The white space of `\s`. -/
def spaces : CharSet := if f.unicode then .property .whiteSpace else .asciiSpace

/-- The word characters of `\w`. -/
def words : CharSet := if f.unicode then .property .word else .asciiWord

end Flags

end OrderedChoice.Regex
