import OrderedChoice.Text.Numeral
import OrderedChoice.Unicode.Property

/-!
# Quoted text

A text is quoted between double quotes.  A double quote, a backslash and the controls for NUL,
tab, carriage return and line feed are written with a backslash and one letter; a character
without a picture of its own, or one that would attach to the character before it, is written as
its code point in hexadecimal; all else stands for itself.
-/

namespace OrderedChoice

/-- An ASCII character with a picture, or the blank. -/
def isAsciiGraphic (c : Char) : Bool := 32 ≤ c.toNat && c.toNat ≤ 126

/-- Whether a character can stand for itself between the quotes. -/
def standsForItself (c : Char) : Bool :=
  isAsciiGraphic c || (Unicode.isPrintable c && !Unicode.extendsGrapheme c)

/-- A character as it is written between the quotes. -/
def quoteChar (c : Char) : List Char :=
  if c == '\x00' then ['\\', '0']
  else if c == '\t' then ['\\', 't']
  else if c == '\r' then ['\\', 'r']
  else if c == '\n' then ['\\', 'n']
  else if c == '"' then ['\\', '"']
  else if c == '\\' then ['\\', '\\']
  else if standsForItself c then [c]
  else '\\' :: 'u' :: '\x7b' :: (hexDigits c.toNat ++ ['\x7d'])

/-- The text between quotes. -/
def quoteChars (cs : List Char) : List Char := '"' :: (cs.flatMap quoteChar ++ ['"'])

/-- The text between quotes. -/
def quoted (s : String) : String := String.ofList (quoteChars s.toList)

end OrderedChoice
