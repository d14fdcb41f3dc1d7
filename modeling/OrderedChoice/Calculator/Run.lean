import OrderedChoice.Calculator.Arguments
import OrderedChoice.Calculator.Grammar
import OrderedChoice.Config
import OrderedChoice.Loading
import OrderedChoice.Session

/-!
# Running the calculator

Each expression is parsed in turn and gives a line of output.  The first error ends the run.
Without a configuration an expression must match in full.
-/

namespace OrderedChoice.Calculator

/-- The line for an expression with its value. -/
def line (expression : String) : Value → String
  | .integer n => expression ++ " = " ++ Value.integerText n ++ "\n"
  | _ => expression ++ " = undefined\n"

/-- The line for an expression that does not match. -/
def noMatchLine (expression : String) : String := expression ++ ": no match\n"

/-- The output of a run that ends in an error. -/
def failure (stdout message : String) : Output := ⟨1, stdout, "Error: " ++ message ++ "\n"⟩

/-- Evaluates expressions one after the other; `stdout` is what has been written before. -/
def evaluate (s : Session Action) (stdout : String) : List String → Output
  | [] => ⟨0, stdout, ""⟩
  | expression :: rest =>
    match s.parse expression with
    | (⟨.matched v, _⟩, s) => evaluate s (stdout ++ line expression v) rest
    | (⟨.mismatch, _⟩, s) => evaluate s (stdout ++ noMatchLine expression) rest
    | (⟨.error e, _⟩, _) => failure stdout (Error.grammar e).message
    | (⟨.endless, _⟩, _) => failure stdout "expressions nest without end"

/-- What comes of opening files: their bytes, or reasons why they cannot be opened. -/
abbrev Files := String → Except String ByteArray

variable (L : Json.Library) (C : Json.Coding Config)

/-- The configuration of a run: that of its file, or full matches. -/
def configuration (a : Arguments) (files : Files) : Except Error Config :=
  match a.config with
  | some path => fromFile L C path (files path)
  | none => .ok (Config.default.withFullMatch true)

/-- Runs the calculator. -/
def run (a : Arguments) (files : Files) : Output :=
  match configuration L C a files with
  | .error e => failure "" e.message
  | .ok config => evaluate (.new grammar meaning config) "" a.expressions

/-- The output for the arguments of a command line. -/
def outputFor (files : Files) (read : Arguments.Reader) (args : List String) : Output :=
  match read args with
  | .error o => o
  | .ok a => run L C a files

end OrderedChoice.Calculator
