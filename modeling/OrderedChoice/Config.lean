import OrderedChoice.Text.Fields
import OrderedChoice.Text.Numeral

/-!
# Configurations

How a session parses: how deeply expressions may nest, and whether a match must take the whole
input.  By default nesting is not limited and a match may stop anywhere.
-/

namespace OrderedChoice

/-- The settings of a session. -/
structure Config where
  /-- How deeply expressions may nest. -/
  maxDepth : Option UInt64
  /-- Whether a match that leaves input is a mismatch. -/
  requireFullMatch : Bool
  deriving DecidableEq, Repr

namespace Config

/-- No limit, and no need for a full match. -/
def default : Config := ⟨none, false⟩

instance : Inhabited Config := ⟨default⟩

/-- The configuration with a limit on nesting. -/
def withMaxDepth (c : Config) (limit : UInt64) : Config := { c with maxDepth := some limit }

/-- The configuration with or without the need for a full match. -/
def withFullMatch (c : Config) (required : Bool) : Config := { c with requireFullMatch := required }

/-- The configuration with its fields. -/
def inspect (c : Config) : String :=
  inspectFields "ParserConfig"
    [("max_depth", inspectOption (c.maxDepth.map fun n => natText n.toNat)),
      ("require_full_match", flagText c.requireFullMatch)]

end Config

end OrderedChoice
