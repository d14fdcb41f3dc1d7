import OrderedChoice.Proofs.Span
import OrderedChoice.Session

/-!
# Backtracking

An attempt that does not match leaves the machine where it found it, and one that does leaves it
at the same place or further on.  `Attempt.Exact start depth` says so of an attempt that was begun
at the place `start` with so many expressions open; an attempt that ends in an error may leave the
machine anywhere ahead.

Every function of the engine is exact where the matcher of expressions that it calls is, because
`Attempt.andThen` and `Attempt.orElse` are (`Attempt.Exact.andThen`, `Attempt.Exact.orElse`).  By
induction on how deeply expressions nest `matchExpression` itself is exact, and it turns back to
the expression, rule and symbol it came from whatever the outcome (`focus_matchExpression`).

`backtracking_exact` puts this together for every call in a run.
-/

namespace OrderedChoice

variable {τ : Type}

/-! ### What reports leave alone -/

@[simp] theorem Machine.reportError_position (m : Machine τ) (err : GrammarError) :
    (m.reportError err).position = m.position := by
  unfold reportError
  split <;> rfl

@[simp] theorem recordTransform_position (args : List Value) (c : Context τ) (m : Machine τ) :
    (recordTransform args c m).position = m.position := by
  unfold recordTransform
  split <;> rfl

@[simp] theorem recordTransform_depth (args : List Value) (c : Context τ) (m : Machine τ) :
    (recordTransform args c m).depth = m.depth := by
  unfold recordTransform
  split <;> rfl

@[simp] theorem finishRule_position (s : Setting τ) (args : List Value) (c : Context τ)
    (m : Machine τ) : (finishRule s args c m).machine.position = m.position :=
  recordTransform_position args c m

@[simp] theorem finishRule_depth (s : Setting τ) (args : List Value) (c : Context τ)
    (m : Machine τ) : (finishRule s args c m).machine.depth = m.depth :=
  recordTransform_depth args c m

/-! ### Exact attempts -/

/-- Where an attempt that was begun at `start`, at some depth, may leave the machine. -/
def Attempt.Exact {α : Type} (start : Position) (depth : Nat) (r : Attempt τ α) : Prop :=
  match r.outcome with
  | .matched _ => start.Reaches r.machine.position ∧ r.machine.depth = depth
  | .mismatch => r.machine.position = start ∧ r.machine.depth = depth
  | .error _ | .endless => start.Reaches r.machine.position

/-- Every expression is matched exactly. -/
def Matcher.Exact (call : Matcher τ) : Prop :=
  ∀ g e m, (call g e m).Exact m.position m.depth

namespace Attempt.Exact

variable {α β : Type} {start p : Position} {d : Nat} {r : Attempt τ α}

theorem reaches (h : r.Exact start d) : start.Reaches r.machine.position := by
  obtain ⟨o, m⟩ := r
  cases o with
  | matched a => exact h.1
  | mismatch => exact h.1 ▸ .refl _
  | error e => exact h
  | endless => exact h

/-- What follows a match of the attempt must be exact from where the attempt was begun. -/
theorem andThen (h : r.Exact start d) {f : α → Machine τ → Attempt τ β}
    (hf : ∀ a m, start.Reaches m.position → m.depth = d → (f a m).Exact start d) :
    (r.andThen f).Exact start d := by
  obtain ⟨o, m⟩ := r
  cases o with
  | matched a => exact hf a m h.1 h.2
  | mismatch => exact h
  | error e => exact h
  | endless => exact h

/-- An attempt that is begun further on, and what follows its mismatch. -/
theorem orElse (h : r.Exact p d) (hp : start.Reaches p) {f : Machine τ → Attempt τ α}
    (hf : ∀ m, m.position = p → m.depth = d → (f m).Exact start d) :
    (r.orElse f).Exact start d := by
  obtain ⟨o, m⟩ := r
  cases o with
  | matched a => exact ⟨hp.trans h.1, h.2⟩
  | mismatch => exact hf m h.1 h.2
  | error e => exact hp.trans h
  | endless => exact hp.trans h

end Attempt.Exact

/-! ### The engine is exact -/

variable {call : Matcher τ} {one : Machine τ → Attempt τ Value} {g : Grammar τ} {e : Expression τ}

theorem exact_matchTerminal (t : Terminal) (q : Quantifier) (m : Machine τ) :
    (matchTerminal t q m).Exact m.position m.depth := by
  unfold matchTerminal
  split
  · exact ⟨⟨_, Position.spans_advance _ _⟩, rfl⟩
  · exact ⟨rfl, rfl⟩

/-- A repetition may be begun anywhere before, since it never ends in a mismatch. -/
theorem exact_matchRepeatedly (hone : ∀ m, (one m).Exact m.position m.depth) {start : Position}
    (bound : Nat) (m : Machine τ) (hm : start.Reaches m.position) :
    (matchRepeatedly one bound m).Exact start m.depth := by
  induction bound generalizing m with
  | zero => exact hm
  | succ bound ih =>
    have h := hone m
    unfold matchRepeatedly
    generalize one m = r at h
    obtain ⟨o, m'⟩ := r
    -- a round that matches may be the last or not; one that does not match ends in a match
    cases o with
    | matched v =>
      obtain ⟨hp, hd⟩ : m.position.Reaches m'.position ∧ m'.depth = m.depth := h
      dsimp only
      split
      · exact ⟨hm.trans hp, hd⟩
      · rw [← hd]
        exact (ih m' (hm.trans hp)).andThen fun vs m'' hp' hd' => ⟨hp', hd'⟩
    | mismatch =>
      obtain ⟨hp, hd⟩ : m'.position = m.position ∧ m'.depth = m.depth := h
      exact ⟨hp ▸ hm, hd⟩
    | error x => exact hm.trans h
    | endless => exact hm.trans h

theorem exact_matchQuantified (hone : ∀ m, (one m).Exact m.position m.depth) (q : Quantifier)
    (m : Machine τ) : (matchQuantified one q m).Exact m.position m.depth := by
  have hlist : ∀ allowed : Bool,
      ((matchRepeatedly one (m.position.rest.length + 1) m).andThen fun vs m' =>
        if vs.isEmpty && !allowed then ⟨.mismatch, m'.moveTo m.position⟩
        else ⟨.matched (Value.list vs), m'⟩).Exact m.position m.depth := by
    intro allowed
    refine (exact_matchRepeatedly hone _ m (.refl _)).andThen fun vs m' hp hd => ?_
    -- with too few items the machine is sent back to where it started
    split
    · exact ⟨rfl, hd⟩
    · exact ⟨hp, hd⟩
  cases q with
  | one => exact hone m
  | optional => exact (hone m).orElse (.refl _) fun m' hp hd => ⟨hp ▸ .refl _, hd⟩
  | zeroOrMore => exact hlist _
  | oneOrMore => exact hlist _

theorem exact_matchKind (hcall : call.Exact) (x : Symbol) (m : Machine τ) :
    (matchKind call g e x m).Exact m.position m.depth := by
  unfold matchKind
  split
  · exact exact_matchTerminal _ _ m
  · exact exact_matchTerminal _ _ m
  · split
    · exact exact_matchQuantified (hcall _ _) _ m
    · rename_i err _
      exact (m.reportError_position err).symm ▸ .refl _

theorem exact_matchSymbol (hcall : call.Exact) (x : Symbol) (m : Machine τ) :
    (matchSymbol call g e x m).Exact m.position m.depth := by
  have h := exact_matchKind (g := g) (e := e) hcall x m
  unfold matchSymbol
  generalize matchKind call g e x m = r at h
  obtain ⟨o, m'⟩ := r
  cases o <;> exact h

theorem exact_applyLookahead {p : Position} {d : Nat} {r : Attempt τ Value} (l : Lookahead)
    (h : r.Exact p d) : (applyLookahead l p r).Exact p d := by
  cases l with
  | consume => exact h
  | assert => exact h.andThen fun _ m _ hd => ⟨.refl _, hd⟩
  | lenient => exact h.orElse (.refl _) fun m _ hd => ⟨.refl _, hd⟩

/-- The symbols of a rule are exact from where the rule was begun: it is there that the rule is
given up. -/
theorem exact_matchSymbols (hcall : call.Exact) (rule : Rule τ) {start : Position}
    (xs : List Symbol) (m : Machine τ) (hm : start.Reaches m.position) :
    (matchSymbols call g e rule start xs m).Exact start m.depth := by
  induction xs generalizing m with
  | nil => exact ⟨hm, rfl⟩
  | cons x xs ih =>
    have hx := exact_applyLookahead x.lookahead
      (exact_matchSymbol (g := g) (e := e) hcall x (m.atSymbol x))
    -- giving up goes back to the start of the rule, past all symbols matched before this one
    have hgive : ∀ m' : Machine τ, m'.position = m.position → m'.depth = m.depth →
        (⟨.mismatch, giveUp e rule start x m'⟩ : Attempt τ Value).Exact start m.depth :=
      fun m' _ hd => ⟨rfl, hd⟩
    refine (hx.orElse hm hgive).andThen fun v m' hp hd => ?_
    have hd' : m'.depth = m.depth := hd
    exact hd' ▸ (ih m' hp).andThen fun vs m'' hp' hd' => ⟨hp', hd'⟩

theorem exact_matchRule (s : Setting τ) (hcall : call.Exact) (rule : Rule τ) (m : Machine τ) :
    (matchRule s call g e rule m).Exact m.position m.depth := by
  refine (exact_matchSymbols hcall rule rule.symbols (m.atRule rule) (.refl _)).andThen ?_
  intro args m' hp hd
  refine ⟨?_, ?_⟩
  · rw [finishRule_position]
    exact hp
  · rw [finishRule_depth]
    exact hd

theorem exact_matchRules (s : Setting τ) (hcall : call.Exact) (rules : List (Rule τ))
    (m : Machine τ) : (matchRules s call g e rules m).Exact m.position m.depth := by
  induction rules generalizing m with
  | nil => exact ⟨rfl, rfl⟩
  | cons rule rules ih =>
    refine (exact_matchRule s hcall rule m).orElse (.refl _) fun m' hp hd => ?_
    rw [← hp, ← hd]
    exact ih m'

theorem exact_matchInside (s : Setting τ) (hcall : call.Exact) (g : Grammar τ)
    (e : Expression τ) (m : Machine τ) : (matchInside s call g e m).Exact m.position m.depth := by
  have hnone : ∀ m' : Machine τ, m'.position = m.position → m'.depth = m.depth + 1 →
      (⟨.mismatch, m'.report (.noRuleMatched e.name g.name m'.cursor)⟩ :
        Attempt τ Value).Exact m.position (m.depth + 1) :=
    fun m' hp hd => ⟨hp, hd⟩
  have h := (exact_matchRules (g := g) (e := e) s hcall e.rules (m.enter e)).orElse (.refl _) hnone
  unfold matchInside
  generalize Attempt.orElse _ _ = r at h
  obtain ⟨o, m'⟩ := r
  -- leaving the expression takes back the one level by which entering it went down
  cases o with
  | matched v => exact ⟨h.1, congrArg (· - 1) h.2⟩
  | mismatch => exact ⟨h.1, congrArg (· - 1) h.2⟩
  | error x => exact h
  | endless => exact h

/-- Every expression is matched exactly, however deeply expressions may nest. -/
theorem exact_matchExpression (s : Setting τ) (bound : Nat) : (matchExpression s bound).Exact := by
  induction bound with
  | zero => exact fun _ _ m => .refl m.position
  | succ bound ih =>
    intro g e m
    unfold matchExpression
    split
    · exact exact_matchInside s ih g e m
    · split
      · exact .refl m.position
      · exact exact_matchInside s ih g e m

/-- An expression turns back to where in the grammar it was come from, whatever the outcome. -/
theorem focus_matchExpression (s : Setting τ) (bound : Nat) (g : Grammar τ) (e : Expression τ)
    (m : Machine τ) : (matchExpression s bound g e m).machine.focus = m.focus := by
  -- no induction: whatever the rules do, `leave` is given what was at hand on entering
  cases bound with
  | zero => rfl
  | succ bound =>
    unfold matchExpression
    split
    · rfl
    · split <;> rfl

/-! ### Every call in a run -/

/-- What holds of an attempt that the machine `m` was left to: a mismatch gives the place back, a
match does not go back, neither leaves an expression open, and the text stays the same. -/
structure Attempt.Backtracks {α : Type} (m : Machine τ) (r : Attempt τ α) : Prop where
  position_of_mismatch : r.outcome = .mismatch → r.machine.position = m.position
  cursor_of_matched : ∀ a, r.outcome = .matched a → m.cursor ≤ r.machine.cursor
  depth_of_mismatch : r.outcome = .mismatch → r.machine.depth = m.depth
  depth_of_matched : ∀ a, r.outcome = .matched a → r.machine.depth = m.depth
  same_text : ∀ text, (Position.start text).Reaches m.position →
    (Position.start text).Reaches r.machine.position

theorem Attempt.Exact.backtracks {α : Type} {m : Machine τ} {r : Attempt τ α}
    (h : r.Exact m.position m.depth) : r.Backtracks m := by
  have hr := h.reaches
  obtain ⟨o, m'⟩ := r
  refine ⟨?_, fun _ _ => hr.offset_le, ?_, ?_, fun text ht => ht.trans hr⟩
  · rintro rfl
    exact h.1
  · rintro rfl
    exact h.2
  · rintro a rfl
    exact h.2

/-- **Backtracking is exact at every level.**  The machine, the expression, rule or symbol and the
bound on nesting are arbitrary, so this holds of every call in every run of a session.  What is
not part of the machine no call can change, and a parse gives it back as it was. -/
theorem backtracking_exact (s : Session τ) (text : String) (bound : Nat) (g : Grammar τ)
    (e : Expression τ) (m : Machine τ) :
    (matchExpression (s.setting text.toList) bound g e m).Backtracks m ∧
      (matchExpression (s.setting text.toList) bound g e m).machine.focus = m.focus ∧
      (∀ rule, (matchRule (s.setting text.toList)
        (matchExpression (s.setting text.toList) bound) g e rule m).Backtracks m) ∧
      (∀ x, (matchSymbol (matchExpression (s.setting text.toList) bound) g e x m).Backtracks m) ∧
      (s.parse text).2.grammar = s.grammar ∧ (s.parse text).2.config = s.config ∧
      (s.parse text).2.input = text := by
  have hcall := exact_matchExpression (s.setting text.toList) bound
  refine ⟨(hcall g e m).backtracks, focus_matchExpression _ bound g e m, fun rule => ?_,
    fun x => ?_, rfl, rfl, rfl⟩
  · exact (exact_matchRule _ hcall rule m).backtracks
  · exact (exact_matchSymbol hcall x m).backtracks

end OrderedChoice
