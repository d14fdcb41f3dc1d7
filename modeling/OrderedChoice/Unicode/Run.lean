/-!
# Runs of code points

The character tables list sets of code points as runs: `⟨first, last, step⟩` stands for every
`step`-th code point from `first` to `last`.  A step of two keeps alphabets short in which
capitals and small letters alternate.
-/

namespace OrderedChoice.Unicode

/-- Every `step`-th code point from `first` to `last`. -/
structure Run where
  first : Nat
  last : Nat
  step : Nat
  deriving DecidableEq, Repr

/-- Whether a code point is in the run. -/
def Run.contains (r : Run) (n : Nat) : Bool :=
  r.first ≤ n && n ≤ r.last && (n - r.first) % r.step == 0

/-- Whether a code point is in one of the runs of a table. -/
def inRuns (table : List Run) (n : Nat) : Bool := table.any (·.contains n)

theorem inRuns_eq_true_iff {table : List Run} {n : Nat} :
    inRuns table n = true ↔ ∃ r ∈ table, r.contains n = true := by
  simp [inRuns]

/-- Tables whose runs lie apart have no code point in common. -/
theorem not_inRuns_of_apart {a b : List Run} {n : Nat}
    (h : ∀ r ∈ a, ∀ s ∈ b, r.last < s.first ∨ s.last < r.first) (hn : inRuns a n = true) :
    inRuns b n = false := by
  obtain ⟨r, hr, hrn⟩ := inRuns_eq_true_iff.1 hn
  refine Bool.eq_false_iff.2 fun hb => ?_
  obtain ⟨s, hs, hsn⟩ := inRuns_eq_true_iff.1 hb
  have hrs := h r hr s hs
  simp only [Run.contains, Bool.and_eq_true, decide_eq_true_eq] at hrn hsn
  omega

end OrderedChoice.Unicode
