import OrderedChoice.Match.Attempt
import OrderedChoice.Match.Terminal

/-!
# The matching engine

An expression tries its rules in order and takes the first that matches; a rule matches its
symbols one after the other; a symbol matches text or another expression.  A mismatch leaves the
position where it was.  An error ends the parse and is never taken for a mismatch.

Expressions may lead back to themselves, so `matchExpression` is given a bound on how deeply they
may nest; where the bound is too small the outcome is `endless`.  All other functions take what
they do with an expression as the argument `call`, and recur on the rules of the expression, the
symbols of the rule or the text that is left.
-/

namespace OrderedChoice

/-- What stays the same while a parse runs. -/
structure Setting (τ : Type) where
  meaning : Meaning τ
  /-- How deeply expressions may nest before the parse ends in an error. -/
  limit : Option Nat
  input : List Char

/-- A function that matches an expression in the grammar that is active in it. -/
abbrev Matcher (τ : Type) := Grammar τ → Expression τ → Machine τ → Attempt τ Value

variable {τ : Type}

/-! ### Text -/

/-- Matches text, whose value is the text itself. -/
def matchTerminal (t : Terminal) (q : Quantifier) (m : Machine τ) : Attempt τ Value :=
  match t.taken? q m.position.rest with
  | some n => ⟨.matched (.ofChars (m.position.rest.take n)), m.moveTo (m.position.advance n)⟩
  | none => ⟨.mismatch, m⟩

/-! ### References -/

/-- Matches an expression again and again, at most as often as the bound, until it fails or
matches nothing. -/
def matchRepeatedly (call : Machine τ → Attempt τ Value) :
    Nat → Machine τ → Attempt τ (List Value)
  | 0, m => ⟨.endless, m⟩
  | bound + 1, m =>
    match call m with
    | ⟨.matched v, m'⟩ =>
      if m'.cursor = m.cursor then ⟨.matched [v], m'⟩
      else (matchRepeatedly call bound m').andThen fun vs m'' => ⟨.matched (v :: vs), m''⟩
    | ⟨.mismatch, m'⟩ => ⟨.matched [], m'⟩
    | ⟨.error e, m'⟩ => ⟨.error e, m'⟩
    | ⟨.endless, m'⟩ => ⟨.endless, m'⟩

/-- Matches an expression as often as a quantifier says.  Absent, an optional expression gives
the empty string; a repeated one gives the list of its values. -/
def matchQuantified (call : Machine τ → Attempt τ Value) (q : Quantifier) (m : Machine τ) :
    Attempt τ Value :=
  match q with
  | .one => call m
  | .optional => (call m).orElse fun m' => ⟨.matched (.string ""), m'⟩
  | .zeroOrMore | .oneOrMore =>
    (matchRepeatedly call (m.position.rest.length + 1) m).andThen fun vs m' =>
      if vs.isEmpty && !q.allowsNone then ⟨.mismatch, m'.moveTo m.position⟩
      else ⟨.matched (.list vs), m'⟩

/-! ### Symbols -/

/-- Matches what a symbol of an expression stands for. -/
def matchKind (call : Matcher τ) (g : Grammar τ) (e : Expression τ) (s : Symbol)
    (m : Machine τ) : Attempt τ Value :=
  match s.kind with
  | .literal text => matchTerminal (.literal text.toList) s.quantifier m
  | .pattern p => matchTerminal (.pattern p) s.quantifier m
  | .reference r =>
    match g.resolve r e.name with
    | .ok (g', e') => matchQuantified (call g' e') s.quantifier m
    | .error err => ⟨.error err, m.reportError err⟩

/-- Reports the outcome of a symbol, unless it ends the parse. -/
def reportSymbol (s : Symbol) : Attempt τ Value → Attempt τ Value
  | ⟨.matched v, m⟩ => ⟨.matched v, m.report (.symbolTried s true m.cursor)⟩
  | ⟨.mismatch, m⟩ => ⟨.mismatch, m.report (.symbolTried s false m.cursor)⟩
  | r => r

/-- Matches a symbol and reports it. -/
def matchSymbol (call : Matcher τ) (g : Grammar τ) (e : Expression τ) (s : Symbol)
    (m : Machine τ) : Attempt τ Value :=
  reportSymbol s (matchKind call g e s m)

/-- What a rule makes of a symbol that was tried at a place: what is only looked for is given
back, and a mismatch that does not matter is passed over. -/
def applyLookahead (l : Lookahead) (before : Position) (r : Attempt τ Value) : Attempt τ Value :=
  match l with
  | .consume => r
  | .assert => r.andThen fun _ m => ⟨.matched .null, m.moveTo before⟩
  | .lenient => r.orElse fun m => ⟨.matched .null, m.moveTo before⟩

/-! ### Rules -/

/-- Gives up a rule that was begun at a place, because a symbol has failed. -/
def giveUp (e : Expression τ) (rule : Rule τ) (start : Position) (s : Symbol) (m : Machine τ) :
    Machine τ :=
  (m.report (.backtrack e.name rule.symbols s m.cursor start.offset)).moveTo start

/-- Matches the symbols of a rule that was begun at a place.  At the first that fails the rule
is given up. -/
def matchSymbols (call : Matcher τ) (g : Grammar τ) (e : Expression τ) (rule : Rule τ)
    (start : Position) : List Symbol → Machine τ → Attempt τ (List Value)
  | [], m => ⟨.matched [], m⟩
  | s :: ss, m =>
    ((applyLookahead s.lookahead m.position (matchSymbol call g e s (m.atSymbol s))).orElse
        fun m' => ⟨.mismatch, giveUp e rule start s m'⟩).andThen fun v m' =>
      (matchSymbols call g e rule start ss m').andThen fun vs m'' => ⟨.matched (v :: vs), m''⟩

/-- The value of a rule that has matched: what its transform makes of the values of its symbols,
or the text it has matched. -/
def ruleValue (meaning : Meaning τ) (args : List Value) (c : Context τ) : Value :=
  match c.rule.transform with
  | some t => meaning t args c
  | none => .string c.matchedText

/-- Logs the transform of a rule that has matched, if it has one. -/
def recordTransform (args : List Value) (c : Context τ) (m : Machine τ) : Machine τ :=
  match c.rule.transform with
  | some t => m.recordCall ⟨t, args, c⟩
  | none => m

/-- Completes a rule that has matched. -/
def finishRule (s : Setting τ) (args : List Value) (c : Context τ) (m : Machine τ) :
    Attempt τ Value :=
  ⟨.matched (ruleValue s.meaning args c),
    (recordTransform args c m).report
      (.ruleMatched c.expression.name c.rule.symbols c.start.offset c.stop.offset)⟩

/-- Matches a rule of an expression. -/
def matchRule (s : Setting τ) (call : Matcher τ) (g : Grammar τ) (e : Expression τ)
    (rule : Rule τ) (m : Machine τ) : Attempt τ Value :=
  (matchSymbols call g e rule m.position rule.symbols (m.atRule rule)).andThen fun args m' =>
    finishRule s args ⟨g, e, rule, s.input, m.position, m'.position⟩ m'

/-- Tries rules in order. -/
def matchRules (s : Setting τ) (call : Matcher τ) (g : Grammar τ) (e : Expression τ) :
    List (Rule τ) → Machine τ → Attempt τ Value
  | [], m => ⟨.mismatch, m⟩
  | rule :: rules, m =>
    (matchRule s call g e rule m).orElse fun m' => matchRules s call g e rules m'

/-! ### Expressions -/

/-- Tries the rules of an expression one level deeper, and turns back to where the parse was. -/
def matchInside (s : Setting τ) (call : Matcher τ) (g : Grammar τ) (e : Expression τ)
    (m : Machine τ) : Attempt τ Value :=
  ((matchRules s call g e e.rules (m.enter e)).orElse fun m' =>
      ⟨.mismatch, m'.report (.noRuleMatched e.name g.name m'.cursor)⟩).mapMachine
    fun m' => m'.leave m.focus

/-- Matches an expression, unless it nests more deeply than the setting allows.  The bound is on
how many expressions are open at once. -/
def matchExpression (s : Setting τ) : Nat → Matcher τ
  | 0, _, _, m => ⟨.endless, m⟩
  | bound + 1, g, e, m =>
    match s.limit with
    | none => matchInside s (matchExpression s bound) g e m
    | some limit =>
      if limit < m.depth + 1 then
        ⟨.error (.depthExceeded limit e.name), { m with depth := m.depth + 1 }⟩
      else matchInside s (matchExpression s bound) g e m

end OrderedChoice
