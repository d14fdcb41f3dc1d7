import OrderedChoice.Regex.Group

/-!
# Reading regular expressions

`Regex.read` reads an expression from its text in one pass from left to right.  Flags that a
group sets hold for its rest, also for later alternatives, and end with it.
-/

namespace OrderedChoice.Regex

/-- A part of the alternative that is being read. -/
inductive Item where
  | node (r : Regex)
  /-- A setting of flags, which no repetition can follow. -/
  | setting

/-- What is carried along while an expression is read. -/
structure Reading where
  flags : Flags
  /-- The names of all groups so far. -/
  names : List (List Char)
  rest : List Char

/-- The expression that items make up, the last item given first. -/
def ofItems (items : List Item) : Regex :=
  concat <| items.reverse.filterMap fun
    | .node r => some r
    | .setting => none

/-- The alternatives that have been read, the last given first. -/
def ofBranches (items : List Item) (branches : List Regex) : Regex :=
  match (ofItems items :: branches).reverse with
  | [] => empty
  | r :: rs => choice r rs

/-- The items with the last one repeated; there must be one. -/
def repeatLast (least : Nat) (most : Option Nat) : List Item → Option (List Item)
  | .node r :: items => some (.node (.iterate r least most) :: items)
  | _ => none

/-- The text without a question mark at its front. -/
def dropLazy : List Char → List Char
  | '?' :: r => r
  | r => r

variable (d : Dialect)

/-- Reads a single character, escape, test or bracket class. -/
def readAtom (f : Flags) : List Char → Option (Regex × List Char)
  | [] => none
  | '\\' :: r => (readEscape d f r).bind fun (p, rest) => (p.toRegex? f).map (·, rest)
  | '[' :: r => (readBracket d f r).map fun (s, rest) => (.set s, rest)
  | '.' :: r => f.dot.map fun s => (.set s, r)
  | '^' :: r => some (.look f.caret, r)
  | '$' :: r => some (.look f.dollar, r)
  | c :: r => some (f.literal c, r)

/-- Reads alternatives up to a closing parenthesis or the end of the text: `branches` are the
alternatives and `items` the parts of the present one that have been read. -/
def readBody : Nat → List Regex → List Item → Reading → Option (Regex × Reading)
  | 0, _, _, _ => none
  | n + 1, branches, items, s =>
    match s.flags.skip s.rest with
    | [] => some (ofBranches items branches, { s with rest := [] })
    | ')' :: r => some (ofBranches items branches, { s with rest := ')' :: r })
    | '|' :: r => readBody n (ofItems items :: branches) [] { s with rest := r }
    | '(' :: r =>
      match readGroupHead s.flags s.names r with
      | none => none
      | some (.setting f r) => readBody n branches (.setting :: items) ⟨f, s.names, r⟩
      | some (.body f names r) =>
        match readBody n [] [] ⟨f, names, r⟩ with
        | some (body, ⟨_, names, ')' :: r⟩) =>
          readBody n branches (.node body :: items) ⟨s.flags, names, r⟩
        | _ => none
    | '*' :: r =>
      (repeatLast 0 none items).bind fun items =>
        readBody n branches items { s with rest := dropLazy r }
    | '+' :: r =>
      (repeatLast 1 none items).bind fun items =>
        readBody n branches items { s with rest := dropLazy r }
    | '?' :: r =>
      (repeatLast 0 (some 1) items).bind fun items =>
        readBody n branches items { s with rest := dropLazy r }
    | '\x7b' :: r =>
      match readCounts s.flags r with
      | some (least, most, r) =>
        (repeatLast least most items).bind fun items =>
          readBody n branches items { s with rest := r }
      | none => none
    | cs =>
      match readAtom d s.flags cs with
      | some (r, rest) => readBody n branches (.node r :: items) { s with rest := rest }
      | none => none

/-- Reads a whole expression. -/
def read (text : List Char) : Option Regex :=
  match readBody d (text.length + 1) [] [] ⟨.initial, [], text⟩ with
  | some (r, ⟨_, _, []⟩) => some r
  | _ => none

end OrderedChoice.Regex
