import OrderedChoice.Proofs.Backtracking

/-!
# The rounds of a repetition

A repeated expression is matched round after round.  `rounds` lists the rounds of a repetition in
order, each with the machine that it began with and what came of it, so that it can be said of them
what `matchRepeatedly` gives no account of: how many there are and where they stand.

* `length_rounds_le`: whatever the bound, there is at most one round more than there are bytes left;
* `movesOn_of_mem_dropLast`: each round but the last has matched some text;
* `matchQuantified_eq_list`: the items of the list that comes of a repetition are the values of the
  rounds, in order.
-/

namespace OrderedChoice

variable {τ α β : Type}

/-! ### What comes after an attempt -/

namespace Attempt

/-- What there is to list after a match. -/
def ifMatched (r : Attempt τ α) (f : α → Machine τ → List β) : List β :=
  match r with
  | ⟨.matched a, m⟩ => f a m
  | _ => []

/-- What there is to list after a mismatch. -/
def ifMismatch (r : Attempt τ α) (f : Machine τ → List β) : List β :=
  match r with
  | ⟨.mismatch, m⟩ => f m
  | _ => []

/-- The value of a match. -/
def value? (r : Attempt τ α) : Option α :=
  match r with
  | ⟨.matched a, _⟩ => some a
  | _ => none

@[simp] theorem ifMatched_matched (a : α) (m : Machine τ) (f : α → Machine τ → List β) :
    ifMatched ⟨.matched a, m⟩ f = f a m := rfl

@[simp] theorem value?_matched (a : α) (m : Machine τ) :
    value? ⟨.matched a, m⟩ = some a := rfl

end Attempt

/-! ### Rounds -/

/-- A round of a repetition. -/
structure Round (τ : Type) where
  before : Machine τ
  attempt : Attempt τ Value

/-- The round has matched some text. -/
def Round.MovesOn (r : Round τ) : Prop :=
  r.attempt.outcome.isMatch = true ∧ r.before.cursor < r.attempt.machine.cursor

/-- The rounds of a repetition, at most as many as the bound. -/
def rounds (one : Machine τ → Attempt τ Value) : Nat → Machine τ → List (Round τ)
  | 0, _ => []
  | bound + 1, m =>
    ⟨m, one m⟩ :: (one m).ifMatched fun _ m' =>
      if m'.cursor = m.cursor then [] else rounds one bound m'

variable {one : Machine τ → Attempt τ Value}

/-- A round that does not match is the last, and so is one that does not move on. -/
theorem rounds_succ_cases (one : Machine τ → Attempt τ Value) (bound : Nat) (m : Machine τ) :
    rounds one (bound + 1) m = [⟨m, one m⟩] ∨
      ∃ v m', one m = ⟨.matched v, m'⟩ ∧ m'.cursor ≠ m.cursor ∧
        rounds one (bound + 1) m = ⟨m, one m⟩ :: rounds one bound m' := by
  simp only [rounds]
  rcases hr : one m with ⟨o, m'⟩
  cases o with
  | matched v =>
    by_cases hc : m'.cursor = m.cursor
    · simp [hc]
    · exact .inr ⟨v, m', rfl, hc, by simp [hc]⟩
  | mismatch => exact .inl rfl
  | error x => exact .inl rfl
  | endless => exact .inl rfl

section

variable (hone : ∀ m, (one m).Exact m.position m.depth)
include hone

/-- Each round but the last leaves less text to those after it. -/
theorem length_rounds_le_length (bound : Nat) (m : Machine τ) :
    (rounds one bound m).length ≤ m.position.rest.length + 1 := by
  induction bound generalizing m with
  | zero => simp [rounds]
  | succ bound ih =>
    rcases rounds_succ_cases one bound m with h | ⟨v, m', hm, hc, h⟩
    · simp [h]
    · have hx := hone m
      rw [hm] at hx
      have hlt : m'.position.rest.length < m.position.rest.length := hx.1.length_lt hc
      have hrest := ih m'
      rw [h, List.length_cons]
      omega

/-- There is at most one round more than there are bytes left. -/
theorem length_rounds_le (bound : Nat) (m : Machine τ) :
    (rounds one bound m).length ≤ byteLength m.position.rest + 1 :=
  Nat.le_trans (length_rounds_le_length hone bound m)
    (Nat.succ_le_succ (length_le_byteLength m.position.rest))

/-- Each round but the last has matched some text. -/
theorem movesOn_of_mem_dropLast (bound : Nat) (m : Machine τ) {r : Round τ}
    (hr : r ∈ (rounds one bound m).dropLast) : r.MovesOn := by
  induction bound generalizing m with
  | zero => simp [rounds] at hr
  | succ bound ih =>
    rcases rounds_succ_cases one bound m with h | ⟨v, m', hm, hc, h⟩
    · simp [h] at hr
    · have hx := hone m
      rw [hm] at hx
      -- nothing but a round that has moved on is followed by others
      have hfirst : Round.MovesOn ⟨m, one m⟩ := by
        rw [hm]
        exact ⟨rfl, Nat.lt_of_le_of_ne hx.1.offset_le (Ne.symm hc)⟩
      rw [h] at hr
      cases hrest : rounds one bound m' with
      | nil => simp [hrest] at hr
      | cons r' rs =>
        rw [hrest, List.dropLast_cons_cons, List.mem_cons] at hr
        rcases hr with rfl | hr
        · exact hfirst
        · exact ih m' (by rwa [hrest])

end

/-- The items of a repetition are the values of its rounds. -/
theorem matchRepeatedly_eq_values {bound : Nat} {m m' : Machine τ} {vs : List Value}
    (h : matchRepeatedly one bound m = ⟨.matched vs, m'⟩) :
    vs = (rounds one bound m).filterMap fun r => r.attempt.value? := by
  induction bound generalizing m vs with
  | zero => cases h
  | succ bound ih =>
    unfold matchRepeatedly at h
    simp only [rounds]
    rcases hr : one m with ⟨o, m₁⟩
    rw [hr] at h
    cases o with
    | matched v =>
      by_cases hc : m₁.cursor = m.cursor
      · simp only [hc, if_pos] at h
        cases h
        simp [hc]
      · simp only [hc, if_neg, not_false_eq_true] at h
        rcases hrest : matchRepeatedly one bound m₁ with ⟨o', m₂⟩
        rw [hrest] at h
        cases o' <;> cases h
        simp [hc, ← ih hrest]
    | mismatch =>
      cases h
      rfl
    | error x => cases h
    | endless => cases h

/-- What comes of a repeated expression is the list of the values of its rounds. -/
theorem matchQuantified_eq_list {q : Quantifier} (hq : q.isRepeating = true) {m m' : Machine τ}
    {v : Value} (h : matchQuantified one q m = ⟨.matched v, m'⟩) :
    v = .list ((rounds one (m.position.rest.length + 1) m).filterMap
      fun r => r.attempt.value?) := by
  have hlist : ∀ allowed : Bool,
      ((matchRepeatedly one (m.position.rest.length + 1) m).andThen fun vs m' =>
        if vs.isEmpty && !allowed then ⟨.mismatch, m'.moveTo m.position⟩
        else ⟨.matched (Value.list vs), m'⟩) = ⟨.matched v, m'⟩ →
      v = .list ((rounds one (m.position.rest.length + 1) m).filterMap
        fun r => r.attempt.value?) := by
    intro allowed h
    rcases hr : matchRepeatedly one (m.position.rest.length + 1) m with ⟨o, m₁⟩
    rw [hr] at h
    cases o with
    | matched vs =>
      rw [Attempt.andThen_matched] at h
      split at h
      · cases h
      · cases h
        rw [← matchRepeatedly_eq_values hr]
    | mismatch => cases h
    | error x => cases h
    | endless => cases h
  cases q with
  | one => cases hq
  | optional => cases hq
  | zeroOrMore => exact hlist _ h
  | oneOrMore => exact hlist _ h

end OrderedChoice
