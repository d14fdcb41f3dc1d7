import OrderedChoice.Text.Fields

/-!
# Writing JSON

Strings, arrays and objects as JSON without blanks, the parts of the latter two being written before
them.
-/

namespace OrderedChoice

/-- A character as it stands in a JSON string. -/
def jsonChar (c : Char) : List Char :=
  if c == '"' then ['\\', '"']
  else if c == '\\' then ['\\', '\\']
  else if c == '\x08' then ['\\', 'b']
  else if c == '\x0c' then ['\\', 'f']
  else if c == '\n' then ['\\', 'n']
  else if c == '\r' then ['\\', 'r']
  else if c == '\t' then ['\\', 't']
  else if c.toNat < 32 then
    '\\' :: 'u' :: '0' :: '0' :: Nat.digitChar (c.toNat / 16) :: Nat.digitChar (c.toNat % 16) :: []
  else [c]

/-- A text as a JSON string. -/
def jsonString (s : String) : String :=
  String.ofList ('"' :: (s.toList.flatMap jsonChar ++ ['"']))

/-- An array of items. -/
def jsonArray (items : List String) : String := "[" ++ ",".intercalate items ++ "]"

/-- A member of an object, with its name. -/
def jsonMember (m : String × String) : String := jsonString m.1 ++ ":" ++ m.2

/-- An object of members. -/
def jsonObject (members : List (String × String)) : String :=
  "\x7b" ++ ",".intercalate (members.map jsonMember) ++ "\x7d"

end OrderedChoice
