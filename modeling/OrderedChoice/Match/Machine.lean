import OrderedChoice.Match.Event
import OrderedChoice.Text.Position
import OrderedChoice.Value.Basic

/-!
# The matching machine

The state of a running parse: where it stands in the input, how deeply its expressions nest,
which expression, rule and symbol it is at, and a log of what it has reported and of the
transforms it has applied.
-/

namespace OrderedChoice

variable {τ : Type}

/-- What a transform may look at: the rule that has matched, and where. -/
structure Context (τ : Type) where
  /-- The grammar in which references of the rule are looked up. -/
  grammar : Grammar τ
  expression : Expression τ
  rule : Rule τ
  input : List Char
  start : Position
  stop : Position

namespace Context

/-- The last symbol of the rule. -/
def symbol? (c : Context τ) : Option Symbol := c.rule.symbols.getLast?

/-- The text that the rule has matched. -/
def matchedText (c : Context τ) : String := String.ofList (c.start.textTo c.stop)

end Context

/-- What the names of transforms mean. -/
abbrev Meaning (τ : Type) := τ → List Value → Context τ → Value

/-- An application of a transform. -/
structure Call (τ : Type) where
  transform : τ
  args : List Value
  context : Context τ

/-- A line of the log. -/
inductive Entry (τ : Type) where
  | event (e : Event)
  | call (c : Call τ)

/-- Where in the grammar a parse is. -/
structure Focus (τ : Type) where
  expression : Option (Expression τ)
  rule : Option (Rule τ)
  symbol : Option Symbol

namespace Focus

/-- Nowhere: no parse is running. -/
def none : Focus τ := ⟨.none, .none, .none⟩

/-- Whether no parse is running. -/
def isNone (f : Focus τ) : Bool := f.expression.isNone && f.rule.isNone && f.symbol.isNone

end Focus

/-- The state of a parse. -/
structure Machine (τ : Type) where
  position : Position
  /-- The number of expressions that have been entered and not left. -/
  depth : Nat
  focus : Focus τ
  /-- What has been reported, the latest first. -/
  log : List (Entry τ)

namespace Machine

/-- The state before a parse of a text. -/
def start (text : List Char) : Machine τ := ⟨.start text, 0, .none, []⟩

variable (m : Machine τ)

/-- The offset in bytes. -/
def cursor : Nat := m.position.offset

/-- Adds a report to the log. -/
def report (e : Event) : Machine τ := { m with log := .event e :: m.log }

/-- Adds an application of a transform to the log. -/
def recordCall (c : Call τ) : Machine τ := { m with log := .call c :: m.log }

/-- Adds the report of an unresolved reference to the log. -/
def reportError (e : GrammarError) : Machine τ :=
  match e.event? with
  | some e => m.report e
  | none => m

/-- Goes to a place in the input. -/
def moveTo (p : Position) : Machine τ := { m with position := p }

/-- Turns to a rule. -/
def atRule (r : Rule τ) : Machine τ := { m with focus := { m.focus with rule := some r } }

/-- Turns to a symbol. -/
def atSymbol (s : Symbol) : Machine τ := { m with focus := { m.focus with symbol := some s } }

/-- Turns to an expression, one level deeper. -/
def enter (e : Expression τ) : Machine τ :=
  { m with depth := m.depth + 1, focus := { m.focus with expression := some e } }

/-- Turns back to where the parse was in the grammar, one level up. -/
def leave (back : Focus τ) : Machine τ := { m with depth := m.depth - 1, focus := back }

end Machine

/-- The reports in a log, in order. -/
def eventsOf (log : List (Entry τ)) : List Event :=
  log.reverse.filterMap fun
    | .event e => some e
    | .call _ => none

/-- The applications of transforms in a log, in order. -/
def callsOf (log : List (Entry τ)) : List (Call τ) :=
  log.reverse.filterMap fun
    | .event _ => none
    | .call c => some c

end OrderedChoice
