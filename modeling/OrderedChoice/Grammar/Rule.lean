import OrderedChoice.Grammar.Symbol

/-!
# Rules and expressions

A `Rule` is a sequence of symbols with, perhaps, a transform of what they match; an `Expression`
is a choice between rules that are tried in order.  Rules hold transforms by name, of a type `τ`;
what a name means is said where a grammar is run.
-/

namespace OrderedChoice

/-- A sequence of symbols, and the transform that is applied to their values. -/
structure Rule (τ : Type) where
  symbols : List Symbol
  transform : Option τ

namespace Rule

variable {τ : Type}

/-- The symbols in brackets. -/
def displaySymbols (symbols : List Symbol) : String :=
  "[" ++ ", ".intercalate (symbols.map Symbol.display) ++ "]"

/-- The symbols of the rule in brackets. -/
def display (r : Rule τ) : String := displaySymbols r.symbols

/-- The rule with its fields; of a transform only its presence shows. -/
def inspect (r : Rule τ) : String :=
  inspectFields "Rule"
    [("symbols", "[" ++ ", ".intercalate (r.symbols.map Symbol.inspect) ++ "]"),
      ("transform", inspectOption (r.transform.map fun _ => quoted "<fn>"))]

end Rule

/-- A named choice between rules. -/
structure Expression (τ : Type) where
  name : String
  rules : List (Rule τ)

/-- The expression with more rules behind its own. -/
def Expression.append {τ : Type} (e : Expression τ) (rules : List (Rule τ)) : Expression τ :=
  { e with rules := e.rules ++ rules }

end OrderedChoice
