import OrderedChoice.Config
import OrderedChoice.Match.Engine

/-!
# Sessions

A `Session` binds a grammar to a configuration and parses one text after the other.  Every parse
starts from the root expression at the start of its text and leaves the session reset, so that
nothing of it remains but the text.

* `Session.parse` gives the report of a parse and the session after it;
* `nestingBound` bounds how deeply expressions nest in a parse that ends.
-/

namespace OrderedChoice

variable {τ : Type}

/-- What came of a parse: its outcome, and all that was logged, in reverse order. -/
structure Report (τ : Type) where
  outcome : Outcome Value
  log : List (Entry τ)

/-- A grammar in use. -/
structure Session (τ : Type) where
  grammar : Grammar τ
  meaning : Meaning τ
  config : Config
  /-- The text of the last parse. -/
  input : String
  machine : Machine τ

/-- How deeply expressions can nest before a parse stands in the same expression at the same
place a second time, from where it would never end; with a limit, one more than the limit. -/
def nestingBound (g : Grammar τ) (config : Config) (text : List Char) : Nat :=
  match config.maxDepth with
  | some limit => limit.toNat + 1
  | none => g.expressionCount * (byteLength text + 1) + 1

namespace Session

/-- A session that has not parsed anything. -/
def new (grammar : Grammar τ) (meaning : Meaning τ) (config : Config) : Session τ :=
  ⟨grammar, meaning, config, "", .start []⟩

variable (s : Session τ)

/-- The session with its place in the text and in the grammar forgotten. -/
def reset : Session τ := { s with machine := .start s.input.toList }

/-- What stays the same in a parse of a text. -/
def setting (text : List Char) : Setting τ := ⟨s.meaning, s.config.maxDepth.map (·.toNat), text⟩

/-- Turns a match that leaves input into a mismatch, if the configuration asks for a full match. -/
def checkRemainder (length : Nat) (r : Attempt τ Value) : Attempt τ Value :=
  r.andThen fun v m =>
    if s.config.requireFullMatch && m.cursor < length then
      ⟨.mismatch, m.report (.remainderRejected m.cursor length)⟩
    else ⟨.matched v, m⟩

/-- Matches the root expression. -/
def matchRoot (text : List Char) (m : Machine τ) : Attempt τ Value :=
  match s.grammar.root? with
  | none => ⟨.error (.missingRoot s.grammar.name), m⟩
  | some e =>
    s.checkRemainder (byteLength text)
      (matchExpression (s.setting text) (nestingBound s.grammar s.config text) s.grammar e m)

/-- Parses a text. -/
def parse (input : String) : Report τ × Session τ :=
  let text := input.toList
  let before := (Machine.start text).report (.parseStarted s.grammar.name (byteLength text))
  let r := s.matchRoot text before
  let after := r.machine.report (.parseFinished r.outcome.isMatch r.machine.cursor)
  (⟨r.outcome, after.log⟩, { s with input := input, machine := .start text })

end Session

end OrderedChoice
