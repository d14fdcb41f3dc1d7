import OrderedChoice.Calculator.Run
import OrderedChoice.Json.Coding

/-!
# The command line

Reads the arguments and the configuration file, runs the calculator and prints its output.
-/

namespace OrderedChoice

/-- What comes of opening a file. -/
def openFile (path : String) : IO (Except String ByteArray) := do
  try return .ok (← IO.FS.readBinFile path)
  catch e => return .error (toString e)

/-- The files that arguments ask for; no others are looked at. -/
def filesFor (args : List String) : IO Calculator.Files := do
  match (Calculator.Arguments.read args).toOption.bind (·.config) with
  | some path =>
    let opened ← openFile path
    return fun _ => opened
  | none => return fun _ => .error "no such file"

/-- The output for arguments. -/
def output (args : List String) : IO Calculator.Output := do
  let files ← filesFor args
  return Calculator.outputFor .bundled Config.coding files Calculator.Arguments.read args

end OrderedChoice

/-- Runs the calculator on the arguments of the command line. -/
def main (args : List String) : IO UInt32 := do
  let output ← OrderedChoice.output args
  IO.print output.stdout
  IO.eprint output.stderr
  return output.code
