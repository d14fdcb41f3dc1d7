import OrderedChoice.Match.Machine

/-!
# Attempts

An `Attempt` is what comes of trying to match something: an outcome and the machine after it.
Of a match and of a mismatch a parse may go on; an error ends it.

* `Attempt.andThen` goes on after a match and `Attempt.orElse` after a mismatch; both leave all
  other attempts as they are, which the lemmas beside them say case by case.
-/

namespace OrderedChoice

/-- How an attempt to match ends. -/
inductive Outcome (α : Type) where
  | matched (a : α)
  | mismatch
  | error (e : GrammarError)
  /-- Expressions nest more deeply than the bound allows. -/
  | endless

/-- Whether an outcome is a match. -/
def Outcome.isMatch {α : Type} : Outcome α → Bool
  | matched _ => true
  | _ => false

/-- What comes of trying to match something. -/
structure Attempt (τ α : Type) where
  outcome : Outcome α
  machine : Machine τ

namespace Attempt

variable {τ α β : Type}

/-- Goes on after a match. -/
def andThen (r : Attempt τ α) (f : α → Machine τ → Attempt τ β) : Attempt τ β :=
  match r with
  | ⟨.matched a, m⟩ => f a m
  | ⟨.mismatch, m⟩ => ⟨.mismatch, m⟩
  | ⟨.error e, m⟩ => ⟨.error e, m⟩
  | ⟨.endless, m⟩ => ⟨.endless, m⟩

/-- Goes on after a mismatch. -/
def orElse (r : Attempt τ α) (f : Machine τ → Attempt τ α) : Attempt τ α :=
  match r with
  | ⟨.matched a, m⟩ => ⟨.matched a, m⟩
  | ⟨.mismatch, m⟩ => f m
  | ⟨.error e, m⟩ => ⟨.error e, m⟩
  | ⟨.endless, m⟩ => ⟨.endless, m⟩

/-- Changes the machine, whatever the outcome. -/
def mapMachine (r : Attempt τ α) (f : Machine τ → Machine τ) : Attempt τ α :=
  { r with machine := f r.machine }

section Lemmas

variable (a : α) (e : GrammarError) (m : Machine τ)

section

variable (f : α → Machine τ → Attempt τ β)

@[simp] theorem andThen_matched : andThen ⟨.matched a, m⟩ f = f a m := rfl

@[simp] theorem andThen_mismatch : andThen ⟨.mismatch, m⟩ f = ⟨.mismatch, m⟩ := rfl

@[simp] theorem andThen_error : andThen ⟨.error e, m⟩ f = ⟨.error e, m⟩ := rfl

@[simp] theorem andThen_endless : andThen ⟨.endless, m⟩ f = ⟨.endless, m⟩ := rfl

end

variable (f : Machine τ → Attempt τ α)

@[simp] theorem orElse_matched : orElse ⟨.matched a, m⟩ f = ⟨.matched a, m⟩ := rfl

@[simp] theorem orElse_mismatch : orElse ⟨.mismatch, m⟩ f = f m := rfl

@[simp] theorem orElse_error : orElse ⟨.error e, m⟩ f = ⟨.error e, m⟩ := rfl

@[simp] theorem orElse_endless : orElse ⟨.endless, m⟩ f = ⟨.endless, m⟩ := rfl

end Lemmas

end Attempt

end OrderedChoice
