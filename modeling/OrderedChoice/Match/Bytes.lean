import OrderedChoice.Session
import OrderedChoice.Text.Slice

/-!
# The engine over bytes

The matching engine as it runs on a text that is kept in UTF-8.  The cursor is a number of bytes and
nothing else: it moves by the widths of what has been matched, it is put back to a number that was
remembered, and all that is looked at is sliced out of the input, where a slice that is not there
ends the run.  That this never happens is a theorem and not a matter of how the places of a text are
represented; the engine over characters, whose places carry the text that is left, gives the same
answers.

* `Bytes.Run` is a computation that changes the machine and may stop with an error;
* `Bytes.takeAll` is the loop that moves the end of a text on, one occurrence after the other;
* `Bytes.matchExpression` is the engine and `Session.parseBytes` a whole parse;
* `Bytes.Mark` are the offsets that a run has held, which it records.
-/

namespace OrderedChoice

variable {τ : Type}

namespace Bytes

/-! ### The machine -/

/-- What a transform may look at: the rule that has matched, and the bytes it has matched. -/
structure Context (τ : Type) where
  grammar : Grammar τ
  expression : Expression τ
  rule : Rule τ
  input : String
  start : Nat
  stop : Nat

/-- An application of a transform. -/
structure Call (τ : Type) where
  transform : τ
  args : List Value
  context : Context τ

/-- A line of the log. -/
inductive Entry (τ : Type) where
  | event (e : Event)
  | call (c : Call τ)

/-- Offsets that a run has held. -/
inductive Mark where
  /-- The cursor was put there. -/
  | cursor (n : Nat)
  /-- The end that a text which is being matched has reached, and where the text begins. -/
  | running (start stop : Nat)
  /-- The ends of what a rule has matched. -/
  | span (start stop : Nat)
  deriving DecidableEq, Repr

namespace Mark

/-- The offset that must not be the larger. -/
def start : Mark → Nat
  | cursor n => n
  | running start _ | span start _ => start

/-- The offset that must not be the smaller. -/
def stop : Mark → Nat
  | cursor n => n
  | running _ stop | span _ stop => stop

end Mark

/-- The state of a parse. -/
structure Machine (τ : Type) where
  cursor : Nat
  depth : Nat
  focus : Focus τ
  /-- What has been reported, the latest first. -/
  log : List (Entry τ)
  /-- The offsets that have been held, the latest first. -/
  marks : List Mark

namespace Machine

variable (m : Machine τ)

/-- The state before a parse. -/
def start : Machine τ := ⟨0, 0, .none, [], [.cursor 0]⟩

/-- Puts the cursor at an offset. -/
def moveTo (n : Nat) : Machine τ := { m with cursor := n, marks := .cursor n :: m.marks }

/-- Records offsets that are held. -/
def mark (k : Mark) : Machine τ := { m with marks := k :: m.marks }

/-- Adds a line to the log. -/
def record (entry : Entry τ) : Machine τ := { m with log := entry :: m.log }

/-- Adds a report to the log. -/
def report (e : Event) : Machine τ := m.record (.event e)

/-- Turns to a place in the grammar. -/
def turn (f : Focus τ → Focus τ) : Machine τ := { m with focus := f m.focus }

/-- Opens an expression. -/
def descend : Machine τ := { m with depth := m.depth + 1 }

/-- Closes an expression, and turns back to where the parse was in the grammar. -/
def leave (back : Focus τ) : Machine τ := { m with depth := m.depth - 1, focus := back }

end Machine

/-! ### Computations -/

/-- Why a run ends without an answer. -/
inductive Stop where
  | error (e : GrammarError)
  /-- Expressions nest more deeply than the bound allows, or a loop goes on for too long. -/
  | endless
  /-- There is no slice of the input between two offsets. -/
  | missingSlice (start stop : Nat)

/-- A computation that changes the machine, and may stop. -/
abbrev Run (τ : Type) := ExceptT Stop (StateM (Machine τ))

/-- What a computation comes to that is begun with a machine. -/
def Run.on {α : Type} (x : Run τ α) (m : Machine τ) : Except Stop α × Machine τ := x.run.run m

/-- Whether an answer is a match. -/
def isMatch {α : Type} : Except Stop (Option α) → Bool
  | .ok (some _) => true
  | _ => false

/-- What is cut out of the input between two offsets, if it is there. -/
def present {α : Type} (start stop : Nat) : Option α → Run τ α
  | some a => return a
  | none => throw (.missingSlice start stop)

/-- Stops with an error, after its report if it has one. -/
def fail {α : Type} (e : GrammarError) : Run τ α := do
  match e.event? with
  | some event => modify (·.report event)
  | none => pure ()
  throw (.error e)

/-! ### Text -/

/-- The number of bytes of a literal at the start of a text. -/
def literalWidth? (text rest : String) : Option Nat :=
  if startsWith text rest then some text.utf8ByteSize else none

/-- The number of bytes of a character at the start of a text that a pattern accepts. -/
def patternWidth? (p : Pattern) (rest : String) : Option Nat :=
  ((firstChar? rest).filter p.accepts).map Char.utf8Size

/-- Moves the end of a text on, one occurrence after the other, at most as often as the bound.
Gives the end and the number of occurrences; one is enough unless the text is repeated, and an
empty one is the last. -/
def takeAll (input : String) (width? : String → Option Nat) (q : Quantifier) (start : Nat) :
    Nat → Nat → Nat → Run τ (Nat × Nat)
  | 0, _, _ => throw .endless
  | bound + 1, stop, count => do
    let rest ← present stop input.utf8ByteSize (slice? input stop input.utf8ByteSize)
    match width? rest with
    | none => return (stop, count)
    | some width =>
      modify (·.mark (.running start (stop + width)))
      if width = 0 || !q.isRepeating then return (stop + width, count + 1)
      else takeAll input width? q start bound (stop + width) (count + 1)

/-- Matches text, whose value is the text itself. -/
def matchText (input : String) (width? : String → Option Nat) (q : Quantifier) :
    Run τ (Option Value) := do
  let start := (← get).cursor
  let (stop, count) ← takeAll input width? q start (input.utf8ByteSize + 1) start 0
  if count = 0 then return if q.allowsNone then some (.string "") else none
  else
    modify (·.moveTo stop)
    return some (.string (← present start stop (slice? input start stop)))

/-! ### References -/

/-- Matches an expression again and again, at most as often as the bound, until it fails or
matches nothing. -/
def matchRepeatedly (call : Run τ (Option Value)) : Nat → Run τ (List Value)
  | 0 => throw .endless
  | bound + 1 => do
    let before := (← get).cursor
    match ← call with
    | none => return []
    | some v =>
      if (← get).cursor = before then return [v]
      else return v :: (← matchRepeatedly call bound)

/-- Matches an expression as often as it is there, and goes back if this is too little. -/
def matchAll (input : String) (call : Run τ (Option Value)) (allowsNone : Bool) :
    Run τ (Option Value) := do
  let start := (← get).cursor
  let items ← matchRepeatedly call (input.utf8ByteSize + 1)
  if items.isEmpty && !allowsNone then
    modify (·.moveTo start)
    return none
  else return some (.list items)

/-- Matches an expression as often as a quantifier says. -/
def matchReference (input : String) (call : Run τ (Option Value)) (q : Quantifier) :
    Run τ (Option Value) :=
  match q with
  | .one => call
  | .optional => return some ((← call).getD (.string ""))
  | .zeroOrMore => matchAll input call true
  | .oneOrMore => matchAll input call false

/-! ### Symbols -/

/-- What stays the same while a parse runs. -/
structure Setting (τ : Type) where
  meaning : Meaning τ
  limit : Option Nat
  input : String

/-- A function that matches an expression in the grammar that is active in it. -/
abbrev Matcher (τ : Type) := Grammar τ → Expression τ → Run τ (Option Value)

variable (s : Setting τ) (call : Matcher τ) (g : Grammar τ) (e : Expression τ)

/-- Matches what a symbol of an expression stands for. -/
def matchKind (x : Symbol) : Run τ (Option Value) :=
  match x.kind with
  | .literal text => matchText s.input (literalWidth? text) x.quantifier
  | .pattern p => matchText s.input (patternWidth? p) x.quantifier
  | .reference r =>
    match g.resolve r e.name with
    | .ok (g', e') => matchReference s.input (call g' e') x.quantifier
    | .error err => fail err

/-- Matches a symbol and reports it. -/
def matchSymbol (x : Symbol) : Run τ (Option Value) := do
  let result ← matchKind s call g e x
  modify fun m => m.report (.symbolTried x result.isSome m.cursor)
  return result

/-- What a symbol of a rule that was begun at an offset gives its transform.  What is only looked
for is given back; at a mismatch that matters the rule is given up. -/
def matchArgument (rule : Rule τ) (start : Nat) (x : Symbol) : Run τ (Option Value) := do
  let before := (← get).cursor
  modify (·.turn fun f => { f with symbol := some x })
  match ← matchSymbol s call g e x, x.lookahead with
  | none, .lenient =>
    modify (·.moveTo before)
    return some .null
  | none, _ =>
    modify fun m => m.report (.backtrack e.name rule.symbols x m.cursor start)
    modify (·.moveTo start)
    return none
  | some _, .assert =>
    modify (·.moveTo before)
    return some .null
  | some v, _ => return some v

/-- Matches the symbols of a rule that was begun at an offset. -/
def matchSymbols (rule : Rule τ) (start : Nat) : List Symbol → Run τ (Option (List Value))
  | [] => return some []
  | x :: xs => do
    match ← matchArgument s call g e rule start x with
    | none => return none
    | some v => return (← matchSymbols rule start xs).map (v :: ·)

/-! ### Rules -/

/-- The place of a text at an offset, if it is there. -/
def place? (input : String) (n : Nat) : Option Position :=
  (slice? input n input.utf8ByteSize).map fun rest => ⟨n, rest.toList⟩

namespace Context

/-- The text that the rule has matched, if it is there. -/
def matchedText? (c : Context τ) : Option String := slice? c.input c.start c.stop

/-- What a transform sees of the input through a context: the text that has been matched and the
text from either end on, which must all be there. -/
def characters? (c : Context τ) : Option (OrderedChoice.Context τ) := do
  let _ ← c.matchedText?
  let start ← place? c.input c.start
  let stop ← place? c.input c.stop
  return ⟨c.grammar, c.expression, c.rule, c.input.toList, start, stop⟩

end Context

/-- The value of a rule that has matched: what its transform makes of the values of its symbols,
or the text it has matched. -/
def ruleValue (args : List Value) (c : Context τ) : Run τ Value :=
  match c.rule.transform with
  | some t => do
    let seen ← present c.start c.stop c.characters?
    modify (·.record (.call ⟨t, args, c⟩))
    return s.meaning t args seen
  | none => return .string (← present c.start c.stop c.matchedText?)

/-- Matches a rule of an expression. -/
def matchRule (rule : Rule τ) : Run τ (Option Value) := do
  let start := (← get).cursor
  modify (·.turn fun f => { f with rule := some rule })
  match ← matchSymbols s call g e rule start rule.symbols with
  | none => return none
  | some args =>
    let stop := (← get).cursor
    modify (·.mark (.span start stop))
    let v ← ruleValue s args ⟨g, e, rule, s.input, start, stop⟩
    modify (·.report (.ruleMatched e.name rule.symbols start stop))
    return some v

/-- Tries rules in order. -/
def matchRules : List (Rule τ) → Run τ (Option Value)
  | [] => return none
  | rule :: rules => do
    match ← matchRule s call g e rule with
    | some v => return some v
    | none => matchRules rules

/-! ### Expressions -/

/-- Tries the rules of an expression, and turns back to where the parse was. -/
def matchInside : Run τ (Option Value) := do
  let saved := (← get).focus
  modify (·.turn fun f => { f with expression := some e })
  try
    let result ← matchRules s call g e e.rules
    if result.isNone then modify fun m => m.report (.noRuleMatched e.name g.name m.cursor)
    pure result
  finally
    modify (·.leave saved)

/-- Matches an expression, unless it nests more deeply than the setting allows.  The bound is on
how many expressions are open at once. -/
def matchExpression (s : Setting τ) : Nat → Matcher τ
  | 0, _, _ => throw .endless
  | bound + 1, g, e => do
    modify Machine.descend
    match s.limit with
    | some limit =>
      if limit < (← get).depth then throw (.error (.depthExceeded limit e.name))
      else matchInside s (matchExpression s bound) g e
    | none => matchInside s (matchExpression s bound) g e

/-! ### Parses -/

/-- What came of a parse: its answer, all that was logged, and the offsets that were held, each in
reverse order. -/
structure Report (τ : Type) where
  answer : Except Stop (Option Value)
  log : List (Entry τ)
  marks : List Mark

/-- The reports in a log, in order. -/
def eventsOf (log : List (Entry τ)) : List Event :=
  log.reverse.filterMap fun
    | .event e => some e
    | .call _ => none

/-- The applications of transforms in a log, in order. -/
def callsOf (log : List (Entry τ)) : List (Call τ) :=
  log.reverse.filterMap fun
    | .event _ => none
    | .call c => some c

end Bytes

namespace Session

variable (s : Session τ)

/-- Matches the root expression, and turns a match that leaves input into a mismatch if the
configuration asks for a full match. -/
def matchRootBytes (input : String) : Bytes.Run τ (Option Value) :=
  match s.grammar.root? with
  | none => Bytes.fail (.missingRoot s.grammar.name)
  | some e => do
    let setting : Bytes.Setting τ := ⟨s.meaning, s.config.maxDepth.map (·.toNat), input⟩
    let bound := nestingBound s.grammar s.config input.toList
    let result ← Bytes.matchExpression setting bound s.grammar e
    let cursor := (← get).cursor
    if s.config.requireFullMatch && result.isSome && cursor < input.utf8ByteSize then
      modify (·.report (.remainderRejected cursor input.utf8ByteSize))
      return none
    else return result

/-- Parses a text by its bytes. -/
def parseBytes (input : String) : Bytes.Report τ :=
  let before := Bytes.Machine.start.report (.parseStarted s.grammar.name input.utf8ByteSize)
  let r := (s.matchRootBytes input).on before
  let after := r.2.report (.parseFinished (Bytes.isMatch r.1) r.2.cursor)
  ⟨r.1, after.log, after.marks⟩

end Session

end OrderedChoice
