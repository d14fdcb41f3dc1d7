import OrderedChoice.Text.Fields
import OrderedChoice.Text.Numeral

/-!
# Errors

A `GrammarError` says that a grammar is broken, or that its rules nest more deeply than allowed;
it ends a parse and is never taken for a mismatch.  An `Error` is any error of the library.

* `GrammarError.message` and `Error.message` are the texts for readers;
* `GrammarError.inspect` and `Error.inspect` write the constructors with their fields.
-/

namespace OrderedChoice

/-- What is wrong with a grammar. -/
inductive GrammarError where
  | unknownExpression (expression grammar referencedFrom : String)
  | unknownGrammar (grammar active referencedFrom : String)
  | missingRoot (grammar : String)
  | invalidPattern (pattern message : String)
  | depthExceeded (limit : Nat) (expression : String)
  deriving DecidableEq, Repr

namespace GrammarError

/-- The reason why an empty pattern is refused. -/
def emptyClass : String := "empty character class"

/-- The text of an error. -/
def message : GrammarError → String
  | unknownExpression expression grammar referencedFrom =>
    "Unknown expression: '" ++ expression ++ "' is not defined in grammar '" ++ grammar
      ++ "' (referenced from '" ++ referencedFrom ++ "')"
  | unknownGrammar grammar active referencedFrom =>
    "Unknown grammar: '" ++ grammar ++ "' is not imported by grammar '" ++ active
      ++ "' (referenced from '" ++ referencedFrom ++ "')"
  | missingRoot grammar => "Missing root: grammar '" ++ grammar ++ "' has no root expression"
  | invalidPattern pattern message => "Invalid pattern '" ++ pattern ++ "': " ++ message
  | depthExceeded limit expression =>
    "Depth exceeded: recursion limit " ++ natText limit ++ " reached while matching '"
      ++ expression ++ "'"

/-- The error with its fields. -/
def inspect : GrammarError → String
  | unknownExpression expression grammar referencedFrom =>
    inspectFields "UnknownExpression" [("expression", quoted expression),
      ("grammar", quoted grammar), ("referenced_from", quoted referencedFrom)]
  | unknownGrammar grammar active referencedFrom =>
    inspectFields "UnknownGrammar" [("grammar", quoted grammar), ("active", quoted active),
      ("referenced_from", quoted referencedFrom)]
  | missingRoot grammar => inspectFields "MissingRoot" [("grammar", quoted grammar)]
  | invalidPattern pattern message =>
    inspectFields "InvalidPattern" [("pattern", quoted pattern), ("message", quoted message)]
  | depthExceeded limit expression =>
    inspectFields "DepthExceeded" [("limit", natText limit), ("expression", quoted expression)]

end GrammarError

/-- An error of the library. -/
inductive Error where
  | grammar (e : GrammarError)
  | config (text : String)
  | internal (text : String)
  deriving DecidableEq, Repr

namespace Error

/-- The text of an error. -/
def message : Error → String
  | grammar e => "Grammar error: " ++ e.message
  | config text => "Config error: " ++ text
  | internal text => "Internal error: " ++ text

/-- The error with its fields. -/
def inspect : Error → String
  | grammar e => "Grammar(" ++ e.inspect ++ ")"
  | config text => "Config(" ++ quoted text ++ ")"
  | internal text => "Internal(" ++ quoted text ++ ")"

/-- The error in the grammar, if it is one. -/
def asGrammarError? : Error → Option GrammarError
  | grammar e => some e
  | _ => none

end Error

end OrderedChoice
