import OrderedChoice.Calculator.Arguments
import OrderedChoice.Calculator.Grammar
import OrderedChoice.Calculator.Run
import OrderedChoice.Config
import OrderedChoice.Error
import OrderedChoice.Grammar.Basic
import OrderedChoice.Grammar.Pattern
import OrderedChoice.Grammar.Reading
import OrderedChoice.Grammar.Rule
import OrderedChoice.Grammar.Symbol
import OrderedChoice.Json.Basic
import OrderedChoice.Json.Coding
import OrderedChoice.Json.Library
import OrderedChoice.Json.Reader
import OrderedChoice.Json.Writer
import OrderedChoice.Loading
import OrderedChoice.Main
import OrderedChoice.Match.Attempt
import OrderedChoice.Match.Bytes
import OrderedChoice.Match.Engine
import OrderedChoice.Match.Event
import OrderedChoice.Match.Machine
import OrderedChoice.Match.Terminal
import OrderedChoice.Number.Binary64
import OrderedChoice.Number.Layout
import OrderedChoice.Number.Shortest
import OrderedChoice.Proofs.Absence
import OrderedChoice.Proofs.Arguments
import OrderedChoice.Proofs.Assertions
import OrderedChoice.Proofs.Backtracking
import OrderedChoice.Proofs.Building
import OrderedChoice.Proofs.Calculator.CommandLine
import OrderedChoice.Proofs.Calculator.Correctness
import OrderedChoice.Proofs.Calculator.Language
import OrderedChoice.Proofs.Calculator.LeadingSign
import OrderedChoice.Proofs.Calculator.LongestPrefix
import OrderedChoice.Proofs.Calculator.Reading
import OrderedChoice.Proofs.Calculator.RoundTrip
import OrderedChoice.Proofs.Calculator.Rules
import OrderedChoice.Proofs.Calculator.Values
import OrderedChoice.Proofs.Calls
import OrderedChoice.Proofs.Checks
import OrderedChoice.Proofs.Conversion
import OrderedChoice.Proofs.Cursor.Agreement
import OrderedChoice.Proofs.Cursor.Boundary
import OrderedChoice.Proofs.Cursor.Run
import OrderedChoice.Proofs.DeadRules
import OrderedChoice.Proofs.Depth.LeadingCycle
import OrderedChoice.Proofs.Depth.LeftRecursion
import OrderedChoice.Proofs.Depth.Limit
import OrderedChoice.Proofs.Depth.Requests
import OrderedChoice.Proofs.Depth.Visits
import OrderedChoice.Proofs.Displays
import OrderedChoice.Proofs.Errors
import OrderedChoice.Proofs.History
import OrderedChoice.Proofs.Hygiene
import OrderedChoice.Proofs.Json.Configurations
import OrderedChoice.Proofs.Json.Grammar
import OrderedChoice.Proofs.Json.Library
import OrderedChoice.Proofs.Json.Nesting
import OrderedChoice.Proofs.Json.RoundTrip
import OrderedChoice.Proofs.Json.Soundness
import OrderedChoice.Proofs.Keys
import OrderedChoice.Proofs.MaximalMunch
import OrderedChoice.Proofs.Nullable
import OrderedChoice.Proofs.Numerals
import OrderedChoice.Proofs.Parts
import OrderedChoice.Proofs.PatternNotation
import OrderedChoice.Proofs.References
import OrderedChoice.Proofs.Regex.Anchored
import OrderedChoice.Proofs.Regex.ClosedBody
import OrderedChoice.Proofs.Regex.Closing
import OrderedChoice.Proofs.Regex.Remainder
import OrderedChoice.Proofs.Repetition
import OrderedChoice.Proofs.Scope
import OrderedChoice.Proofs.Semantics.Adequacy
import OrderedChoice.Proofs.Semantics.Basic
import OrderedChoice.Proofs.Semantics.Completeness
import OrderedChoice.Proofs.Semantics.Composition
import OrderedChoice.Proofs.Semantics.Inversion
import OrderedChoice.Proofs.Semantics.Nesting
import OrderedChoice.Proofs.Semantics.Rewriting
import OrderedChoice.Proofs.Semantics.Soundness
import OrderedChoice.Proofs.Semantics.Terminal
import OrderedChoice.Proofs.Semantics.Transport
import OrderedChoice.Proofs.SeparatedLists
import OrderedChoice.Proofs.Simulation
import OrderedChoice.Proofs.Span
import OrderedChoice.Proofs.Spelling
import OrderedChoice.Proofs.TextPreservation
import OrderedChoice.Proofs.Transcript
import OrderedChoice.Proofs.Translation
import OrderedChoice.Proofs.Unrolling
import OrderedChoice.Regex.Basic
import OrderedChoice.Regex.Bracket
import OrderedChoice.Regex.CharSet
import OrderedChoice.Regex.Dialect
import OrderedChoice.Regex.Escape
import OrderedChoice.Regex.Flags
import OrderedChoice.Regex.Group
import OrderedChoice.Regex.Library
import OrderedChoice.Regex.Reader
import OrderedChoice.Session
import OrderedChoice.Table
import OrderedChoice.Text.Fields
import OrderedChoice.Text.Numeral
import OrderedChoice.Text.Position
import OrderedChoice.Text.Quoted
import OrderedChoice.Text.Slice
import OrderedChoice.Text.Split
import OrderedChoice.Transform
import OrderedChoice.Unicode.CaseFold
import OrderedChoice.Unicode.Category
import OrderedChoice.Unicode.Letter
import OrderedChoice.Unicode.Mark
import OrderedChoice.Unicode.Numeral
import OrderedChoice.Unicode.Property
import OrderedChoice.Unicode.Property.Runs
import OrderedChoice.Unicode.Punctuation
import OrderedChoice.Unicode.Run
import OrderedChoice.Unicode.Script
import OrderedChoice.Unicode.Script.Runs
import OrderedChoice.Unicode.Separator
import OrderedChoice.Unicode.Sign
import OrderedChoice.Value.Basic
import OrderedChoice.Value.Equality
