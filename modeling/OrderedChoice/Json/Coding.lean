import OrderedChoice.Config
import OrderedChoice.Json.Library
import OrderedChoice.Table
import OrderedChoice.Value.Basic

/-!
# Values and configurations as JSON

A value is written as the name of its constructor with its content: `{"Integer":1}`, and `"Null"`
alone.  Numbers that are not finite are written as `null`.  A configuration is an object with the
members of a configuration; any may be missing when it is read, and instead of the object there may
be an array of their values in order.
-/

namespace OrderedChoice

open Json

/-! ### Values -/

namespace Value

/-- The name of the constructor. -/
def tag : Value → String
  | integer _ => "Integer"
  | float _ => "Float"
  | string _ => "String"
  | boolean _ => "Boolean"
  | list _ => "List"
  | map _ => "Map"
  | null => "Null"

mutual

/-- The value as JSON. -/
def toJson : Value → String
  | integer i => jsonObject [("Integer", integerText i)]
  | float x => jsonObject [("Float", FloatLayout.json.write x)]
  | string s => jsonObject [("String", jsonString s)]
  | boolean b => jsonObject [("Boolean", flagText b)]
  | list items => jsonObject [("List", jsonArray (itemsToJson items))]
  | map entries => jsonObject [("Map", jsonObject (entriesToJson entries))]
  | null => jsonString "Null"

/-- Each item as JSON. -/
def itemsToJson : List Value → List String
  | [] => []
  | v :: vs => toJson v :: itemsToJson vs

/-- Each entry as a member of an object. -/
def entriesToJson : List (String × Value) → List (String × String)
  | [] => []
  | (k, v) :: es => (k, toJson v) :: entriesToJson es

end

mutual

/-- The value that a tree stands for. -/
def ofJson? : Visitor Value
  | _, .string us => if decodeText us = some "Null" then some null else none
  | room + 1, .object [(key, content)] =>
    match decodeText key with
    | some tag => ofTagged? room tag content
    | none => none
  | _, _ => none

/-- The value with a tag and a content. -/
def ofTagged? : Nat → String → Json → Option Value
  | room, tag, content =>
    match content with
    | .null => if tag = "Null" then some null else none
    | .bool b => if tag = "Boolean" then some (boolean b) else none
    | .string us => if tag = "String" then (decodeText us).map string else none
    | .number n =>
      if tag = "Integer" then (n.integer?.bind toInt64?).map integer
      else if tag = "Float" then n.float?.map float
      else none
    | .array items =>
      if tag = "List" && 0 < room then (ofItems? (room - 1) items).map list else none
    | .object members =>
      if tag = "Map" && 0 < room then (ofMembers? (room - 1) [] members).map map else none

/-- The values of an array. -/
def ofItems? : Nat → List Json → Option (List Value)
  | _, [] => some []
  | room, j :: js =>
    match ofJson? room j with
    | some v => (ofItems? room js).map (v :: ·)
    | none => none

/-- The entries of an object, added to those before them; of entries with one key the last
counts. -/
def ofMembers? : Nat → List (String × Value) → List (List JsonUnit × Json) →
    Option (List (String × Value))
  | _, acc, [] => some acc
  | room, acc, (key, j) :: ms =>
    match decodeText key with
    | some k =>
      match ofJson? room j with
      | some v => ofMembers? room (setEntry k v acc) ms
      | none => none
    | none => none

end

/-- Values as JSON. -/
def coding : Coding Value := ⟨fun v => some v.toJson, ofJson?⟩

end Value

/-! ### Configurations -/

namespace Config

/-- The members of a configuration that have been seen. -/
structure Partly where
  maxDepth : Option (Option UInt64)
  requireFullMatch : Option Bool

/-- The limit that a tree stands for: nothing, or an integer of 64 bits without a sign. -/
def limit? : Json → Option (Option UInt64)
  | .null => some none
  | .number n =>
    match n.integer? with
    | some (.ofNat k) => some (some (UInt64.ofNat k))
    | _ => none
  | _ => none

/-- The Boolean that a tree stands for. -/
def flag? : Json → Option Bool
  | .bool b => some b
  | _ => none

/-- Reads members after those that have been seen: a known one may occur once, others are
passed over. -/
def ofMembers? : Partly → List (List JsonUnit × Json) → Option Partly
  | seen, [] => some seen
  | seen, (key, j) :: ms =>
    match decodeText key with
    | none => none
    | some k =>
      if k = "max_depth" then
        if seen.maxDepth.isSome then none
        else (limit? j).bind fun n => ofMembers? { seen with maxDepth := some n } ms
      else if k = "require_full_match" then
        if seen.requireFullMatch.isSome then none
        else (flag? j).bind fun b => ofMembers? { seen with requireFullMatch := some b } ms
      else ofMembers? seen ms

/-- The configuration that a tree stands for. -/
def ofJson? : Visitor Config
  | _ + 1, .object members =>
    (ofMembers? ⟨none, none⟩ members).map fun seen =>
      ⟨seen.maxDepth.getD none, seen.requireFullMatch.getD false⟩
  | _ + 1, .array [] => some default
  | _ + 1, .array [a] => (limit? a).map fun n => ⟨n, false⟩
  | _ + 1, .array [a, b] => (limit? a).bind fun n => (flag? b).map fun full => ⟨n, full⟩
  | _, _ => none

/-- The configuration as an object of JSON. -/
def toJson (c : Config) : String :=
  let depth := match c.maxDepth with
    | some n => natText n.toNat
    | none => "null"
  jsonObject [("max_depth", depth), ("require_full_match", flagText c.requireFullMatch)]

/-- Configurations as JSON. -/
def coding : Coding Config := ⟨fun c => some c.toJson, ofJson?⟩

end Config

end OrderedChoice
