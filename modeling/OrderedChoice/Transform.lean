import OrderedChoice.Match.Machine

/-!
# Ready-made transforms

Transforms that need no code of their own: they pick, join or count the values of a rule, read
them as numbers, or say where the rule has matched.  `Transform.apply` is their meaning.
-/

namespace OrderedChoice

/-- A ready-made transform. -/
inductive Transform where
  | first
  | arg (i : Nat)
  | list
  | count
  | concat
  | int (i : Nat)
  | add
  | sub
  | nulls
  | display
  | headTail
  | tag (label : String)
  | const (v : Value)
  | text
  | span
  | context

namespace Transform

/-- A value of a rule, `null` where there is none. -/
def argument (args : List Value) (i : Nat) : Value := args.getD i .null

/-- A value of a rule read as a number, zero where it is none. -/
def number (args : List Value) (i : Nat) : Int64 := ((argument args i).toInteger).getD 0

/-- The first value, followed by the items of the second. -/
def joinTail (args : List Value) : List Value :=
  argument args 0 :: ((argument args 1).asList?).getD []

/-- A count as a value. -/
def countValue (n : Nat) : Value := .integer (Int64.ofNat n)

variable {τ : Type}

/-- Where and by which rule a match was made. -/
def describe (args : List Value) (c : Context τ) : Value :=
  .map [("grammar", .string c.grammar.name), ("expression", .string c.expression.name),
    ("rule", .string c.rule.display),
    ("symbol", Value.ofOption (fun s : Symbol => .string s.display) c.symbol?),
    ("text", .string c.matchedText), ("start", countValue c.start.offset),
    ("end", countValue c.stop.offset), ("input_len", countValue (byteLength c.input)),
    ("arity", countValue args.length)]

/-- The value that a transform makes of the values of a rule. -/
def apply (t : Transform) (args : List Value) (c : Context τ) : Value :=
  match t with
  | first => argument args 0
  | arg i => argument args i
  | list => .list args
  | count => countValue args.length
  | concat => .string (Value.textOfItems args)
  | int i => Value.ofOption Value.integer (argument args i).toInteger
  | add => .integer (number args 0 + number args 2)
  | sub => .integer (number args 0 - number args 2)
  | nulls => .list (args.map fun v => .boolean v.isNull)
  | display => .string (Value.list args).display
  | headTail => .list (joinTail args)
  | tag label => .list (.string label :: args)
  | const v => v
  | text => .string c.matchedText
  | span =>
    .string (c.matchedText ++ "@" ++ natText c.start.offset ++ ".." ++ natText c.stop.offset)
  | context => describe args c

/-- The name of a transform. -/
def name : Transform → String
  | first => "first"
  | arg _ => "arg"
  | list => "list"
  | count => "count"
  | concat => "concat"
  | int _ => "int"
  | add => "add"
  | sub => "sub"
  | nulls => "nulls"
  | display => "display"
  | headTail => "headtail"
  | tag _ => "tag"
  | const _ => "const"
  | text => "text"
  | span => "span"
  | context => "ctx"

end Transform

end OrderedChoice
