import OrderedChoice.Json.Reader
import OrderedChoice.Json.Writer

/-!
# Libraries for JSON

A `Library` reads texts, from memory and from the bytes of a file, and has a function for everything
that can be written.  A type has a `Coding` beside it: how it is written with these functions, and
what a tree is taken for.

`Library.bundled` is the library of the reader and the writer of this project.
-/

namespace OrderedChoice.Json

/-- What is made of a tree, if so many more arrays and objects may be opened in each other.  Nothing
is opened in what is passed over. -/
abbrev Visitor (α : Type) := Nat → Json → Option α

/-- How many arrays and objects may be open at one place of a text. -/
def nestingRoom : Nat := 127

/-- A library for JSON. -/
structure Library where
  /-- Reads a text as what is made of its tree. -/
  fromText : {α : Type} → Visitor α → String → Except String α
  /-- Reads the bytes of a file. -/
  fromBytes : {α : Type} → Visitor α → ByteArray → Except String α
  null : String
  bool : Bool → String
  integer : Int → String
  string : String → String
  /-- An array of items that have been written. -/
  array : List String → String
  /-- An object of members with their names, the values having been written. -/
  object : List (String × String) → String

/-- How the values of a type are written, and what trees are taken for. -/
structure Coding (α : Type) where
  write : α → Option String
  visit : Visitor α

/-- What is said of a text that is no value of its type. -/
def malformed : String := "malformed JSON"

/-- Reads a text as what is made of its tree. -/
def readText {α : Type} (visit : Visitor α) (text : String) : Except String α :=
  match (read text.toList).bind (visit nestingRoom) with
  | some a => .ok a
  | none => .error malformed

/-- Reads bytes, which must be those of a text. -/
def readBytes {α : Type} (visit : Visitor α) (bytes : ByteArray) : Except String α :=
  match String.fromUTF8? bytes with
  | some text => readText visit text
  | none => .error malformed

theorem readBytes_toUTF8 {α : Type} (visit : Visitor α) (text : String) :
    readBytes visit text.toUTF8 = readText visit text := by
  have htext : String.fromUTF8? text.toUTF8 = some text := dif_pos text.isValidUTF8
  rw [readBytes, htext]

/-- The library of this project. -/
def Library.bundled : Library where
  fromText := readText
  fromBytes := readBytes
  null := "null"
  bool := flagText
  integer := intText
  string := jsonString
  array := jsonArray
  object := jsonObject

end OrderedChoice.Json
