import OrderedChoice.Grammar.Reading
import OrderedChoice.Match.Machine

/-!
# The calculator

A grammar for integer arithmetic with `+`, `-`, `*`, `/`, parentheses and negative numbers, and
what its rules compute.  Operations of one rank are applied from left to right.  A number that
does not fit into 64 bits, an overflow or a division by zero has no value, and neither has
anything computed from it.
-/

namespace OrderedChoice.Calculator

/-! ### Values -/

/-- What the rules of the calculator compute. -/
inductive Action where
  /-- One of the values. -/
  | pick (i : Nat)
  /-- An operator and its operand, with blanks between them left out. -/
  | operation
  /-- A first operand and the operations that follow it. -/
  | fold
  /-- A number with its sign. -/
  | number

/-- The result of an operation on integers, if it has one. -/
def operate (op : String) (a b : Int64) : Option Int64 :=
  if op = "+" then toInt64? (a.toInt + b.toInt)
  else if op = "-" then toInt64? (a.toInt - b.toInt)
  else if op = "*" then toInt64? (a.toInt * b.toInt)
  else if op = "/" then if b = 0 then none else toInt64? (a.toInt.tdiv b.toInt)
  else none

/-- The value after one more operation. -/
def applyOperation (acc : Option Int64) (op operand : Value) : Option Int64 :=
  match acc, operand.asInteger?, op.asString? with
  | some a, some b, some o => operate o a b
  | _, _, _ => none

/-- The value after operations, each a list of an operator and its operand. -/
def applyOperations : Option Int64 → List Value → Option Int64
  | acc, [] => acc
  | acc, .list (op :: operand :: _) :: rest => applyOperations (applyOperation acc op operand) rest
  | _, _ => none

/-- A value, `null` if there is none. -/
def result : Option Int64 → Value
  | some n => .integer n
  | none => .null

/-- What a rule computes from the values of its symbols. -/
def compute : Action → List Value → Value
  | .pick i, args => args.getD i .null
  | .operation, args => .list [args.getD 1 .null, args.getD 3 .null]
  | .fold, args =>
    result (applyOperations (args.getD 0 .null).asInteger?
      (((args.getD 1 .null).asList?).getD []))
  | .number, args =>
    let magnitude := readInt64? (args.getD 1 .null).text.toList
    result (if (args.getD 0 .null).isNull then magnitude else magnitude.map fun n => -n)

/-- The meaning of the rules. -/
def meaning : Meaning Action := fun a args _ => compute a args

/-! ### The grammar -/

/-- A rule with an action. -/
def rule (symbols : List Symbol) (a : Action) : Rule Action := ⟨symbols, some a⟩

/-- A rule of one literal. -/
def literalRule (text : String) : Rule Action := ⟨[.literal text], none⟩

/-- The operators, in a grammar of their own. -/
def operators : Grammar Action :=
  .ofSteps "ops"
    [.extend "addop" [literalRule "+", literalRule "-"],
      .extend "mulop" [literalRule "*", literalRule "/"]]

/-- One decimal digit. -/
def digit : Pattern := ⟨"\\d", Regex.oneOf (.property .digit), rfl⟩

/-- One character of white space. -/
def blank : Pattern := ⟨"\\s", Regex.oneOf (.property .whiteSpace), rfl⟩

/-- A quantified pattern. -/
def patternSymbol (p : Pattern) (q : Quantifier) : Symbol := ⟨.pattern p, q, .consume⟩

/-- The symbol that a text stands for. -/
def symbol (text : String) : Symbol := .ofString text

/-- The grammar of the calculator. -/
def grammar : Grammar Action :=
  .ofSteps "calc"
    [.use operators,
      .extend "calc" [rule [symbol ":ws", symbol ":sum", symbol ":ws"] (.pick 1)],
      .extend "sum" [rule [symbol ":product", symbol ":sum_tail*"] .fold],
      .extend "sum_tail"
        [rule [symbol ":ws", symbol ":ops:addop", symbol ":ws", symbol ":product"] .operation],
      .extend "product" [rule [symbol ":factor", symbol ":product_tail*"] .fold],
      .extend "product_tail"
        [rule [symbol ":ws", symbol ":ops:mulop", symbol ":ws", symbol ":factor"] .operation],
      .extend "factor"
        [rule [symbol "(", symbol ":ws", symbol ":sum", symbol ":ws", symbol ")"] (.pick 2),
          rule [symbol ":number"] (.pick 0)],
      .extend "number"
        [rule [(Symbol.literal "-").withLookahead .lenient, patternSymbol digit .oneOrMore]
          .number],
      .extend "ws" [⟨[patternSymbol blank .zeroOrMore], none⟩]]

end OrderedChoice.Calculator
