import Mathlib.Order.MinMax
import Mathlib.Tactic.ByContra
import Mathlib.Tactic.Push
import OrderedChoice.Proofs.Depth.Requests
import OrderedChoice.Proofs.Semantics.Soundness
import OrderedChoice.Session

/-!
# The expressions that a run enters

`visits` lists the expressions that a run enters, in the order in which it enters them, each with
its level: the number of expressions that are open when it has been entered, itself included.
Levels are read off the nesting of requests and not off the counter of the machine; that the
counter is in step with them is `depth_of_mem_visits`.

* `answer_of_le`: a run that ends within a bound is the same within a larger one;
* `visits_induct`: what is handed on from each expression to its requests holds of all visits;
* `log_of_mem_visits`: what had been logged when an expression was entered stays logged;
* `level_le_of_rank` and `ends_of_rank`: where requests lead to smaller and smaller numbers, these
  bound the levels, and the run ends;
* `Session.visits` are the visits of a parse, and `deepest` is the largest of their levels.
-/

namespace OrderedChoice

variable {τ : Type}

/-- An expression that is entered. -/
structure Visit (τ : Type) extends Request τ where
  /-- The number of open expressions, this one included. -/
  level : Nat

/-- The limit does not let the machine enter an expression. -/
def Setting.refuses (s : Setting τ) (m : Machine τ) : Bool :=
  match s.limit with
  | none => false
  | some limit => limit < m.depth + 1

/-- The expressions that are entered to answer a request at some level. -/
def visits (s : Setting τ) : Nat → Nat → Request τ → List (Visit τ)
  | 0, _, _ => []
  | bound + 1, level, q =>
    if s.refuses q.machine then []
    else ⟨q, level⟩ ::
      (requestsInside s (matchExpression s bound) q).flatMap (visits s bound (level + 1))

/-- The largest number of expressions that are open at once. -/
def deepest (vs : List (Visit τ)) : Nat := (vs.map (·.level)).foldr max 0

theorem lt_deepest_iff {n : Nat} {vs : List (Visit τ)} :
    n < deepest vs ↔ ∃ v ∈ vs, n < v.level := by
  induction vs with
  | nil => simp [deepest]
  | cons v vs ih =>
    have hcons : deepest (v :: vs) = max v.level (deepest vs) := rfl
    simp [hcons, ih]

theorem deepest_le_iff {n : Nat} {vs : List (Visit τ)} :
    deepest vs ≤ n ↔ ∀ v ∈ vs, v.level ≤ n := by
  rw [← Nat.not_lt, lt_deepest_iff]
  simp

variable {s : Setting τ} {bound level : Nat} {q : Request τ}

/-! ### Entering an expression -/

theorem refuses_iff {limit : Nat} (hl : s.limit = some limit) (m : Machine τ) :
    s.refuses m = true ↔ limit < m.depth + 1 := by
  simp [Setting.refuses, hl]

/-- A refusal is an error. -/
theorem answer_of_refuses (bound : Nat) (h : s.refuses q.machine = true) :
    ∃ limit, s.limit = some limit ∧
    (matchExpression s (bound + 1)).answer q =
      ⟨.error (.depthExceeded limit q.expression.name),
        { q.machine with depth := q.machine.depth + 1 }⟩ := by
  cases hl : s.limit with
  | none => simp [Setting.refuses, hl] at h
  | some limit =>
    rw [refuses_iff hl] at h
    exact ⟨limit, rfl, by simp [Matcher.answer, matchExpression, hl, h]⟩

theorem answer_of_not_refuses (h : s.refuses q.machine = false) :
    (matchExpression s (bound + 1)).answer q =
      matchInside s (matchExpression s bound) q.grammar q.expression q.machine := by
  cases hl : s.limit with
  | none => simp [Matcher.answer, matchExpression, hl]
  | some limit =>
    have hlt : ¬ limit < q.machine.depth + 1 := by
      rw [← refuses_iff hl, h]
      simp
    simp [Matcher.answer, matchExpression, hl, hlt]

theorem makes_requestsInside (s : Setting τ) (bound : Nat) (q : Request τ) :
    Makes (matchExpression s bound) (q.machine.enter q.expression)
      (requestsInside s (matchExpression s bound) q)
      fun c => matchInside s c q.grammar q.expression q.machine :=
  makes_matchInside (exact_matchExpression s bound) (logs_matchExpression s bound) s q

/-- The matcher, with a mismatch where it is endless. -/
def Matcher.settled (call : Matcher τ) : Matcher τ := fun g e m =>
  match call g e m with
  | ⟨.endless, _⟩ => ⟨.mismatch, m⟩
  | r => r

theorem Matcher.answer_settled {call : Matcher τ} (h : (call.answer q).outcome ≠ .endless) :
    call.settled.answer q = call.answer q := by
  simp only [settled, answer] at h ⊢
  rcases hr : call q.grammar q.expression q.machine with ⟨o, m⟩
  rw [hr] at h
  cases o with
  | endless => exact absurd rfl h
  | matched v => rfl
  | mismatch => rfl
  | error x => rfl

theorem Matcher.Exact.follows_settled {call : Matcher τ} (hx : call.Exact) (s : Setting τ)
    (d : Nat) : call.settled.Follows s False (fun _ _ _ => True) d := by
  refine ⟨fun g e m => ?_, fun g e m _ => ?_⟩
  · have hm := hx g e m
    simp only [Matcher.settled]
    rcases hr : call g e m with ⟨o, m'⟩
    rw [hr] at hm
    cases o with
    | endless => exact ⟨rfl, rfl⟩
    | matched v => exact hm
    | mismatch => exact hm
    | error x => exact hm
  · simp only [Matcher.settled]
    rcases call g e m with ⟨o, m'⟩
    cases o <;> exact trivial

/-- An answer is endless only because an answer inside it is. -/
theorem exists_endless (h : (matchInside s (matchExpression s bound) q.grammar q.expression
      q.machine).outcome = .endless) :
    ∃ q' ∈ requestsInside s (matchExpression s bound) q,
      ((matchExpression s bound).answer q').outcome = .endless := by
  by_contra hno
  push Not at hno
  -- a matcher that is never endless gives the same answers, and the same attempt
  have hsame : matchInside s (matchExpression s bound).settled q.grammar q.expression q.machine =
      matchInside s (matchExpression s bound) q.grammar q.expression q.machine :=
    (makes_requestsInside s bound q).same _ fun q' hq' => Matcher.answer_settled (hno q' hq')
  have hfollows := (exact_matchExpression s bound).follows_settled s (q.machine.depth + 1)
  obtain ⟨r, hr, -⟩ := (meets_matchInside hfollows q.grammar q.expression q.machine rfl).isSome
  rw [hsame] at hr
  simp [Attempt.result?, h] at hr

theorem Attempt.endless_iff {α : Type} {r : Attempt τ α} :
    r.outcome = .endless ↔ ∃ p log, r.halt? = some ⟨none, p, log⟩ := by
  obtain ⟨o, m⟩ := r
  cases o <;> simp [Attempt.halt?]

/-- All answers to the requests of a run that ends end. -/
theorem Makes.ne_endless {α : Type} {call : Matcher τ} {m : Machine τ} {qs : List (Request τ)}
    {F : Matcher τ → Attempt τ α} (hF : Makes call m qs F) (h : (F call).outcome ≠ .endless)
    (hq : q ∈ qs) : (call.answer q).outcome ≠ .endless := by
  intro hend
  obtain ⟨p, log, hhalt⟩ := Attempt.endless_iff.1 hend
  obtain ⟨pre, post, hqs⟩ := List.append_of_mem hq
  exact h (Attempt.endless_iff.2 ⟨p, log, hF.halts call pre q post _ hqs (fun _ _ => rfl) hhalt⟩)

/-- A larger bound changes nothing about a run that ends. -/
theorem answer_of_le {bound' : Nat} (hle : bound ≤ bound')
    (h : ((matchExpression s bound).answer q).outcome ≠ .endless) :
    (matchExpression s bound').answer q = (matchExpression s bound).answer q := by
  induction bound generalizing bound' q with
  | zero => exact absurd rfl h
  | succ bound ih =>
    obtain ⟨bound', rfl⟩ : ∃ b, bound' = b + 1 := Nat.exists_eq_succ_of_ne_zero (by omega)
    by_cases href : s.refuses q.machine = true
    · obtain ⟨limit, hl, hans⟩ := answer_of_refuses bound href
      obtain ⟨limit', hl', hans'⟩ := answer_of_refuses bound' href
      obtain rfl : limit = limit' := Option.some.inj (hl.symm.trans hl')
      rw [hans, hans']
    · rw [Bool.not_eq_true] at href
      rw [answer_of_not_refuses href] at h ⊢
      rw [answer_of_not_refuses href]
      -- both bounds leave room for whatever the run asks for
      have hmakes := makes_requestsInside s bound q
      exact hmakes.same _ fun q' hq' => ih (by omega) (hmakes.ne_endless h hq')

/-! ### What holds of all visits -/

/-- What each expression that is entered hands on to its requests holds of all visits. -/
theorem visits_induct {P : Nat → Request τ → Prop}
    (hstep : ∀ bound level q, P level q → s.refuses q.machine = false →
      ∀ q' ∈ requestsInside s (matchExpression s bound) q, P (level + 1) q')
    (h : P level q) {v : Visit τ} (hv : v ∈ visits s bound level q) :
    P v.level v.toRequest ∧ s.refuses v.machine = false := by
  induction bound generalizing level q with
  | zero => cases hv
  | succ bound ih =>
    simp only [visits] at hv
    by_cases href : s.refuses q.machine = true
    · simp [href] at hv
    · rw [Bool.not_eq_true] at href
      rw [href, if_neg Bool.false_ne_true, List.mem_cons, List.mem_flatMap] at hv
      rcases hv with rfl | ⟨q', hq', hv⟩
      · exact ⟨h, href⟩
      · exact ih (hstep bound level q h href q' hq') hv

/-- The counter of the machine is in step with the levels. -/
theorem depth_of_mem_visits (h : q.machine.depth + 1 = level) {v : Visit τ}
    (hv : v ∈ visits s bound level q) : v.machine.depth + 1 = v.level := by
  refine (visits_induct (P := fun level q => q.machine.depth + 1 = level)
    (fun bound level q hq _ q' hq' => ?_) h hv).1
  have hdepth := ((makes_requestsInside s bound q).asked q' hq').1.depth_eq
  rw [hdepth]
  exact congrArg (· + 1) hq

/-- With a limit, no more expressions are open at once. -/
theorem level_le_limit {limit : Nat} (hl : s.limit = some limit) (h : q.machine.depth + 1 = level)
    {v : Visit τ} (hv : v ∈ visits s bound level q) : v.level ≤ limit := by
  have hdepth := depth_of_mem_visits h hv
  have hrefuses : s.refuses v.machine = false :=
    (visits_induct (P := fun _ _ => True) (fun _ _ _ _ _ _ _ => trivial) trivial hv).2
  have hlt : ¬ limit < v.machine.depth + 1 := by
    rw [← refuses_iff hl, hrefuses]
    simp
  omega

/-- What had been logged when an expression was entered stays logged. -/
theorem log_of_mem_visits {v : Visit τ} (hv : v ∈ visits s bound level q) :
    v.machine.log <:+ ((matchExpression s bound).answer q).machine.log := by
  induction bound generalizing level q with
  | zero => cases hv
  | succ bound ih =>
    simp only [visits] at hv
    by_cases href : s.refuses q.machine = true
    · simp [href] at hv
    · rw [Bool.not_eq_true] at href
      have hmakes := makes_requestsInside s bound q
      rw [href, if_neg Bool.false_ne_true, List.mem_cons, List.mem_flatMap] at hv
      rw [answer_of_not_refuses href]
      rcases hv with rfl | ⟨q', hq', hv⟩
      · exact hmakes.grows
      · exact (ih hv).trans (hmakes.asked q' hq').2

/-! ### Ranks -/

section

variable (C : Request τ → Prop) (rank : Request τ → Nat)
  (hstep : ∀ bound q, C q → s.refuses q.machine = false →
    ∀ q' ∈ requestsInside s (matchExpression s bound) q, C q' ∧ rank q' < rank q)
include hstep

/-- A rank that goes down from each expression to its requests bounds the levels. -/
theorem level_le_of_rank (hq : C q) {v : Visit τ} (hv : v ∈ visits s bound level q) :
    v.level ≤ level + rank q := by
  let P : Nat → Request τ → Prop := fun level' q' => C q' ∧ level' + rank q' ≤ level + rank q
  have hP : ∀ bound level' q', P level' q' → s.refuses q'.machine = false →
      ∀ q'' ∈ requestsInside s (matchExpression s bound) q', P (level' + 1) q'' := by
    rintro bound level' q' ⟨hC', hle⟩ href q'' hq''
    obtain ⟨hC, hrank⟩ := hstep bound q' hC' href q'' hq''
    exact ⟨hC, by omega⟩
  obtain ⟨-, hle⟩ := (visits_induct (P := P) hP ⟨hq, le_rfl⟩ hv).1
  omega

/-- A bound that is larger than the rank is large enough. -/
theorem ends_of_rank (hq : C q) (hb : rank q < bound) :
    ((matchExpression s bound).answer q).outcome ≠ .endless := by
  induction bound generalizing q with
  | zero => omega
  | succ bound ih =>
    by_cases href : s.refuses q.machine = true
    · obtain ⟨limit, -, hans⟩ := answer_of_refuses bound href
      rw [hans]
      nofun
    · rw [Bool.not_eq_true] at href
      rw [answer_of_not_refuses href]
      intro hend
      obtain ⟨q', hq', hend'⟩ := exists_endless hend
      obtain ⟨hC, hrank⟩ := hstep bound q hq href q' hq'
      exact ih hC (by omega) hend'

end

/-! ### Parses -/

namespace Session

/-- The machine with which the root expression of a parse is matched. -/
def startMachine (s : Session τ) (text : List Char) : Machine τ :=
  (Machine.start text).report (.parseStarted s.grammar.name (byteLength text))

/-- The expressions that a parse enters. -/
def visits (s : Session τ) (text : List Char) : List (Visit τ) :=
  match s.grammar.root? with
  | none => []
  | some e =>
    OrderedChoice.visits (s.setting text) (nestingBound s.grammar s.config text) 1
      ⟨s.grammar, e, s.startMachine text⟩

end Session

end OrderedChoice
