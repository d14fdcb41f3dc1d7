import OrderedChoice.Grammar.Basic

/-!
# Events

What a parse reports while it runs: the rules it gives up and those it completes, the symbols it
has tried, the references it cannot resolve, and its start and end.  Offsets count bytes.

* `Event.level`, `Event.label` and `Event.fields` are the parts of a report.
-/

namespace OrderedChoice

/-- A report of a running parse. -/
inductive Event where
  | parseStarted (grammar : String) (length : Nat)
  | noRuleMatched (expression grammar : String) (cursor : Nat)
  | backtrack (expression : String) (rule : List Symbol) (failed : Symbol) (cursor start : Nat)
  | ruleMatched (expression : String) (rule : List Symbol) (start stop : Nat)
  | symbolTried (symbol : Symbol) (matched : Bool) (cursor : Nat)
  | unresolvedGrammar (grammar active referencedFrom : String)
  | unresolvedExpression (expression grammar referencedFrom : String)
  | remainderRejected (cursor length : Nat)
  | parseFinished (matched : Bool) (cursor : Nat)
  deriving DecidableEq

/-- The value of a field of a report. -/
inductive Field where
  | text (s : String)
  | number (n : Nat)
  | flag (b : Bool)
  deriving DecidableEq, Repr

namespace Event

/-- How detailed a report is. -/
def level : Event → String
  | parseStarted .. | unresolvedGrammar .. | unresolvedExpression .. => "DEBUG"
  | _ => "TRACE"

/-- What a report is about. -/
def label : Event → String
  | parseStarted .. => "span parse"
  | noRuleMatched .. => "no rule matched"
  | backtrack .. => "backtrack"
  | ruleMatched .. => "rule matched"
  | symbolTried .. => "symbol"
  | unresolvedGrammar .. => "unresolved sub-grammar"
  | unresolvedExpression .. => "unresolved expression"
  | remainderRejected .. => "rejecting partial match"
  | parseFinished .. => "parse finished"

/-- The named values of a report. -/
def fields : Event → List (String × Field)
  | parseStarted grammar length => [("grammar", .text grammar), ("len", .number length)]
  | noRuleMatched expression grammar cursor =>
    [("expression", .text expression), ("grammar", .text grammar), ("cursor", .number cursor)]
  | backtrack expression rule failed cursor start =>
    [("expression", .text expression), ("rule", .text (Rule.displaySymbols rule)),
      ("failed", .text failed.display), ("from", .number cursor), ("to", .number start)]
  | ruleMatched expression rule start stop =>
    [("expression", .text expression), ("rule", .text (Rule.displaySymbols rule)),
      ("span", .text (natText start ++ ".." ++ natText stop))]
  | symbolTried symbol matched cursor =>
    [("symbol", .text symbol.display), ("matched", .flag matched), ("cursor", .number cursor)]
  | unresolvedGrammar grammar active referencedFrom =>
    [("grammar", .text grammar), ("active", .text active),
      ("referenced_from", .text referencedFrom)]
  | unresolvedExpression expression grammar referencedFrom =>
    [("expression", .text expression), ("grammar", .text grammar),
      ("referenced_from", .text referencedFrom)]
  | remainderRejected cursor length => [("cursor", .number cursor), ("len", .number length)]
  | parseFinished matched cursor => [("matched", .flag matched), ("cursor", .number cursor)]

end Event

/-- The report of an error that the look-up of a reference ends in. -/
def GrammarError.event? : GrammarError → Option Event
  | unknownGrammar grammar active referencedFrom =>
    some (.unresolvedGrammar grammar active referencedFrom)
  | unknownExpression expression grammar referencedFrom =>
    some (.unresolvedExpression expression grammar referencedFrom)
  | _ => none

end OrderedChoice
