/-!
# Command-line arguments

The arguments of the calculator: expressions, at least one, and the options `--config FILE`
(`-c`) and `--verbose` (`-v`), each at most once and anywhere among the expressions.  What starts
with a hyphen is an option, but for the hyphen alone and for all that follows `--`.  The options
`--help` (`-h`) and `--version` (`-V`) ask for a text instead of a run, as soon as they are met.

An `Arguments.Reader` is any way to take a command line apart, and `Arguments.read` is the one of
this project.
-/

namespace OrderedChoice.Calculator

/-- What a call of the calculator leaves behind. -/
structure Output where
  code : UInt32
  stdout : String
  stderr : String
  deriving DecidableEq, Repr

/-- What the command line asks for. -/
structure Arguments where
  expressions : List String
  /-- The path of a configuration. -/
  config : Option String
  verbose : Bool
  deriving DecidableEq, Repr

namespace Arguments

/-- Takes a command line apart, or answers it at once. -/
abbrev Reader := List String → Except Output Arguments

/-- How the calculator is called. -/
def usage : String := "Usage: calc [--config FILE] [--verbose] EXPRESSION..."

/-- The output for arguments that cannot be read. -/
def misuse : Output := ⟨2, "", usage ++ "\n"⟩

/-- The output if somebody asks what the calculator is. -/
def information : Output := ⟨0, usage ++ "\n", ""⟩

/-- Nothing is asked for yet. -/
def none : Arguments := ⟨[], .none, false⟩

/-- Adds an expression at the end. -/
def addExpression (a : Arguments) (text : String) : Arguments :=
  { a with expressions := a.expressions ++ [text] }

/-- Sets the path of the configuration, which must not be empty and not be set yet. -/
def setConfig (a : Arguments) (path : String) : Except Output Arguments :=
  if path = "" || a.config.isSome then .error misuse else .ok { a with config := some path }

/-- Asks for details, once. -/
def setVerbose (a : Arguments) : Except Output Arguments :=
  if a.verbose then .error misuse else .ok { a with verbose := true }

/-- Whether an argument is an option. -/
def isOption (text : String) : Bool :=
  match text.toList with
  | '-' :: _ :: _ => true
  | _ => false

/-- What short options ask for. -/
inductive Shorts where
  | done (a : Arguments)
  /-- The path of the configuration is in the next argument. -/
  | configNext (a : Arguments)

/-- Reads short options behind one hyphen. -/
def readShorts (a : Arguments) : List Char → Except Output Shorts
  | [] => .ok (.done a)
  | 'v' :: r => a.setVerbose.bind fun a => readShorts a r
  | 'h' :: _ | 'V' :: _ => .error information
  | ['c'] => .ok (.configNext a)
  | 'c' :: '=' :: r => (a.setConfig (String.ofList r)).map .done
  | 'c' :: r => (a.setConfig (String.ofList r)).map .done
  | _ => .error misuse

/-- What an argument asks for. -/
inductive Kind where
  | expression (text : String)
  | endOfOptions
  | verbose
  | information
  | configNext
  | configIs (path : String)
  | shorts (letters : List Char)
  | unknown

/-- The text after a beginning, if it has it. -/
def dropBeginning (beginning : List Char) (cs : List Char) : Option (List Char) :=
  if beginning.isPrefixOf cs then some (cs.drop beginning.length) else .none

/-- Takes an argument for what it is. -/
def kindOf (text : String) : Kind :=
  match text.toList with
  | '-' :: '-' :: [] => .endOfOptions
  | '-' :: '-' :: long =>
    if long = "verbose".toList then .verbose
    else if long = "help".toList || long = "version".toList then .information
    else if long = "config".toList then .configNext
    else match dropBeginning "config=".toList long with
      | some path => .configIs (String.ofList path)
      | .none => .unknown
  | '-' :: c :: r => .shorts (c :: r)
  | _ => .expression text

/-- Reads arguments after those that have been read. -/
def readAfter : Arguments → List String → Except Output Arguments
  | a, [] => .ok a
  | a, text :: rest =>
    let withPath (a : Arguments) : Except Output Arguments :=
      match rest with
      | path :: rest =>
        if isOption path then .error misuse
        else (a.setConfig path).bind fun a => readAfter a rest
      | [] => .error misuse
    match kindOf text with
    | .expression text => readAfter (a.addExpression text) rest
    | .endOfOptions => .ok { a with expressions := a.expressions ++ rest }
    | .verbose => a.setVerbose.bind fun a => readAfter a rest
    | .information => .error information
    | .configNext => withPath a
    | .configIs path => (a.setConfig path).bind fun a => readAfter a rest
    | .shorts letters =>
      match readShorts a letters with
      | .ok (.done a) => readAfter a rest
      | .ok (.configNext a) => withPath a
      | .error o => .error o
    | .unknown => .error misuse

/-- Reads all arguments; there must be an expression. -/
def read : Reader := fun args =>
  (readAfter none args).bind fun a => if a.expressions.isEmpty then .error misuse else .ok a

end Arguments

end OrderedChoice.Calculator
