import OrderedChoice.Proofs.Backtracking
import OrderedChoice.Proofs.Semantics.Terminal

/-!
# Runs of the machine follow the meaning of the grammar

`r.Meets open X` says that the attempt `r` comes to a result in `X`, or is endless where `open`
allows it.  Each function of the engine meets its rules of `Derives s R` when the matcher that it
calls meets `R`; the last of them is `meets_matchInside`, for the rules of an expression.

The statement `open` is either `True`, and then nothing is said about ending, or `False`, and then
an attempt ends because all that it calls end: a repetition moves on with each round.
-/

namespace OrderedChoice

variable {τ : Type}

/-! ### Results of attempts -/

namespace Attempt

variable {α β : Type}

/-- What an attempt has come to, unless it is endless. -/
def result? (r : Attempt τ α) : Option (Result α) :=
  match r.outcome with
  | .matched a => some (.ok a r.machine.position)
  | .mismatch => some .fail
  | .error e => some (.err e)
  | .endless => none

/-- The attempt comes to a result in `X`, or is endless where that is allowed. -/
def Meets (allowed : Prop) (X : Result α → Prop) (r : Attempt τ α) : Prop :=
  match r.result? with
  | some res => X res
  | none => allowed

variable {allowed : Prop} {X : Result α → Prop} {Y : Result β → Prop} {r : Attempt τ α}
  {start : Position} {d : Nat}

theorem Meets.of_result? (h : r.Meets allowed X) {res : Result α} (hr : r.result? = some res) :
    X res := by
  unfold Meets at h
  rwa [hr] at h

theorem Meets.isSome (h : r.Meets False X) : ∃ res, r.result? = some res ∧ X res := by
  unfold Meets at h
  cases hr : r.result? with
  | some res => rw [hr] at h; exact ⟨res, rfl, h⟩
  | none => rw [hr] at h; exact h.elim

theorem meets_true (h : ∀ res, r.result? = some res → X res) : r.Meets True X := by
  unfold Meets
  split
  · rename_i res hr
    exact h res hr
  · trivial

theorem Meets.mono {X' : Result α → Prop} (h : r.Meets allowed X) (hX : ∀ res, X res → X' res) :
    r.Meets allowed X' := by
  unfold Meets at h ⊢
  split
  · rename_i res hr
    rw [hr] at h
    exact hX res h
  · rename_i hr
    rwa [hr] at h

/-- What follows a match leads from results in `X` to results in `Y`. -/
theorem Meets.andThen (h : r.Meets allowed X) (hx : r.Exact start d)
    {f : α → Machine τ → Attempt τ β}
    (hok : ∀ a m, start.Reaches m.position → m.depth = d → X (.ok a m.position) →
      (f a m).Meets allowed Y)
    (hfail : X .fail → Y .fail) (herr : ∀ e, X (.err e) → Y (.err e)) :
    (r.andThen f).Meets allowed Y := by
  obtain ⟨o, m⟩ := r
  cases o with
  | matched a => exact hok a m hx.1 hx.2 h
  | mismatch => exact hfail h
  | error e => exact herr e h
  | endless => exact h

/-- A value that is only rewritten. -/
theorem Meets.map (h : r.Meets allowed X) (f : α → β) (hf : ∀ res, X res → Y (res.map f)) :
    (r.andThen fun a m => ⟨.matched (f a), m⟩).Meets allowed Y := by
  obtain ⟨o, m⟩ := r
  cases o with
  | matched a => exact hf _ h
  | mismatch => exact hf _ h
  | error e => exact hf _ h
  | endless => exact h

/-- What follows a mismatch leads from results in `X` to other results in `X'`. -/
theorem Meets.orElse {X' : Result α → Prop} (h : r.Meets allowed X) (hx : r.Exact start d)
    {f : Machine τ → Attempt τ α}
    (hfail : ∀ m, m.position = start → m.depth = d → X .fail → (f m).Meets allowed X')
    (hother : ∀ res, res ≠ .fail → X res → X' res) : (r.orElse f).Meets allowed X' := by
  obtain ⟨o, m⟩ := r
  cases o with
  | matched a => exact hother _ nofun h
  | mismatch => exact hfail m hx.1 hx.2 h
  | error e => exact hother _ nofun h
  | endless => exact h

end Attempt

/-! ### The engine follows the rules -/

/-- The frame of an expression that is matched when so many others are open. -/
def Setting.frame (s : Setting τ) (depth : Nat) (g : Grammar τ) (e : Expression τ) : Frame τ :=
  ⟨s.limit.map (· - depth), g, e⟩

theorem Setting.frame_inner (s : Setting τ) (depth : Nat) (g g' : Grammar τ)
    (e e' : Expression τ) :
    (s.frame depth g e).inner g' e' = s.frame (depth + 1) g' e' := by
  simp only [frame, Frame.inner, Option.map_map]
  rfl

/-- The matcher is exact, and called at some depth it comes to what `R` says. -/
structure Matcher.Follows (call : Matcher τ) (s : Setting τ) (allowed : Prop) (R : Semantics τ)
    (depth : Nat) : Prop where
  exact : call.Exact
  meets : ∀ g e m, m.depth = depth → (call g e m).Meets allowed (R (s.frame depth g e) m.position)

variable {s : Setting τ} {allowed : Prop} {R : Semantics τ} {call : Matcher τ}
  {one : Machine τ → Attempt τ Value} {g : Grammar τ} {e : Expression τ} {f : Frame τ} {d : Nat}

theorem meets_matchTerminal (t : Terminal) (q : Quantifier) (m : Machine τ) :
    (matchTerminal t q m).Meets allowed (t.Takes q m.position) := by
  have h := t.takes_result q m.position
  unfold Terminal.result at h
  unfold matchTerminal
  split
  · rename_i n hn
    rw [hn] at h
    exact h
  · rename_i hn
    rw [hn] at h
    exact h

/-- With each round there is less text left, so the bound is not reached. -/
theorem meets_matchRepeatedly (hx : ∀ m, (one m).Exact m.position m.depth)
    (hone : ∀ m, m.depth = d → (one m).Meets allowed (R f m.position)) (bound : Nat)
    (m : Machine τ) (hd : m.depth = d) (hb : m.position.rest.length < bound) :
    (matchRepeatedly one bound m).Meets allowed
      fun r => Derives s R (.repetition f m.position r) := by
  induction bound generalizing m with
  | zero => exact absurd hb (Nat.not_lt_zero _)
  | succ bound ih =>
    have hm := hx m
    have h := hone m hd
    unfold matchRepeatedly
    generalize one m = r at hm h
    obtain ⟨o, m'⟩ := r
    cases o with
    | matched v =>
      obtain ⟨hp, hd'⟩ : m.position.Reaches m'.position ∧ m'.depth = m.depth := hm
      dsimp only
      split
      · rename_i hc
        exact .repeatIdle h hc
      · rename_i hc
        -- a round that moves on leaves less text, which is what the bound counts
        have hlt := hp.length_lt hc
        have hrest := ih m' (hd'.trans hd) (by omega)
        exact hrest.map (v :: ·) fun r hr => .repeatOn h hc hr
    | mismatch =>
      change Derives s R (.repetition f m.position (.ok [] m'.position))
      rw [hm.1]
      exact .repeatEnd h
    | error x => exact .repeatError h
    | endless => exact h

theorem meets_matchQuantified (hx : ∀ m, (one m).Exact m.position m.depth)
    (hone : ∀ m, m.depth = d → (one m).Meets allowed (R f m.position)) (q : Quantifier)
    (m : Machine τ) (hd : m.depth = d) :
    (matchQuantified one q m).Meets allowed
      fun r => Derives s R (.quantified q f m.position r) := by
  have hr := meets_matchRepeatedly (s := s) hx hone _ m hd (Nat.lt_succ_self _)
  have hrx := exact_matchRepeatedly hx (m.position.rest.length + 1) m (.refl _)
  cases q with
  | one => exact (hone m hd).mono fun _ => .one
  | optional =>
    refine (hone m hd).orElse (hx m) (fun m' hp _ hf => ?_) fun res hne h => .optional h hne
    change Derives s R (.quantified .optional f m.position (.ok (.string "") m'.position))
    rw [hp]
    exact .absent hf
  | zeroOrMore =>
    refine hr.andThen hrx (fun vs m' _ _ h => ?_) (fun h => .zeroOrMore h) fun _ h => .zeroOrMore h
    rw [if_neg (by simp [Quantifier.allowsNone])]
    exact Derives.zeroOrMore h
  | oneOrMore =>
    refine hr.andThen hrx (fun vs m' _ _ h => ?_) (fun h => .oneOrMore h nofun)
      fun _ h => .oneOrMore h nofun
    -- only a repetition without any item is too short
    cases vs with
    | nil => exact .tooFew h
    | cons v vs => exact .oneOrMore h nofun

section

variable (hcall : call.Follows s allowed R (d + 1))
include hcall

theorem meets_matchKind (x : Symbol) (m : Machine τ) (hd : m.depth = d + 1) :
    (matchKind call g e x m).Meets allowed
      fun r => Derives s R (.symbol (s.frame d g e) x m.position r) := by
  unfold matchKind
  split
  · rename_i text hk
    exact (meets_matchTerminal _ _ m).mono fun _ h => .literal hk h
  · rename_i c hk
    exact (meets_matchTerminal _ _ m).mono fun _ h => .pattern hk h
  · rename_i ref hk
    split
    · rename_i g' e' hr
      have hf : (s.frame d g e).resolve ref = .ok (s.frame (d + 1) g' e') := by
        rw [← s.frame_inner d g g' e e']
        exact congrArg (Except.map _) hr
      have hq := meets_matchQuantified (s := s) (hcall.exact g' e') (hcall.meets g' e')
        x.quantifier m hd
      exact hq.mono fun _ h => .reference hk hf h
    · rename_i err hr
      exact .unresolved hk (congrArg (Except.map _) hr)

theorem meets_matchSymbol (x : Symbol) (m : Machine τ) (hd : m.depth = d + 1) :
    (matchSymbol call g e x m).Meets allowed
      fun r => Derives s R (.symbol (s.frame d g e) x m.position r) := by
  have h := meets_matchKind (g := g) (e := e) hcall x m hd
  unfold matchSymbol
  generalize matchKind call g e x m = r at h
  obtain ⟨o, m'⟩ := r
  cases o <;> exact h

theorem meets_matchSymbols (rule : Rule τ) (start : Position) (xs : List Symbol) (m : Machine τ)
    (hd : m.depth = d + 1) :
    (matchSymbols call g e rule start xs m).Meets allowed
      fun r => Derives s R (.symbols (s.frame d g e) xs m.position r) := by
  induction xs generalizing m with
  | nil => exact .done
  | cons x xs ih =>
    have h := meets_matchSymbol (g := g) (e := e) hcall x (m.atSymbol x) hd
    have hx := exact_matchSymbol (g := g) (e := e) hcall.exact x (m.atSymbol x)
    unfold matchSymbols
    generalize matchSymbol call g e x (m.atSymbol x) = r at h hx
    obtain ⟨o, m'⟩ := r
    -- what the symbol comes to, then what its lookahead makes of that
    cases o with
    | matched v =>
      have hd' : m'.depth = d + 1 := hx.2.trans hd
      cases hl : x.lookahead with
      | consume => exact (ih m' hd').map (v :: ·) fun _ hr => .kept (by simp [hl]) h hr
      | assert =>
        exact (ih (m'.moveTo m.position) hd').map (Value.null :: ·)
          fun _ hr => Derives.givenBack hl h hr
      | lenient => exact (ih m' hd').map (v :: ·) fun _ hr => .kept (by simp [hl]) h hr
    | mismatch =>
      have hd' : m'.depth = d + 1 := hx.2.trans hd
      cases hl : x.lookahead with
      | consume => exact .failed (by simp [hl]) h
      | assert => exact .failed (by simp [hl]) h
      | lenient =>
        exact (ih (m'.moveTo m.position) hd').map (Value.null :: ·)
          fun _ hr => Derives.passedOver hl h hr
    | error err => cases x.lookahead <;> exact .broken h
    | endless => cases x.lookahead <;> exact h

theorem meets_matchRule (rule : Rule τ) (m : Machine τ) (hd : m.depth = d + 1) :
    (matchRule s call g e rule m).Meets allowed
      fun r => Derives s R (.rule (s.frame d g e) rule m.position r) := by
  have h := meets_matchSymbols (g := g) (e := e) hcall rule m.position rule.symbols
    (m.atRule rule) hd
  have hx := exact_matchSymbols (g := g) (e := e) hcall.exact rule rule.symbols (m.atRule rule)
    (.refl _)
  refine h.andThen hx (fun args m' hp _ hargs => ?_) (fun hf => .ruleFails hf)
    fun _ herr => .ruleError herr
  change Derives s R (.rule _ rule m.position (.ok _ (recordTransform args _ m').position))
  rw [recordTransform_position]
  cases ht : rule.transform with
  | some t =>
    simp only [ruleValue, ht]
    exact Derives.transformed ht hargs
  | none =>
    -- the text that is cut out of the input is the one between the two places
    obtain ⟨text, htext⟩ := hp
    have hcut : m.position.textTo m'.position = text := htext.textTo
    simp only [ruleValue, ht, Context.matchedText, hcut]
    exact Derives.plain ht hargs htext

theorem meets_matchRules (rules : List (Rule τ)) (m : Machine τ) (hd : m.depth = d + 1) :
    (matchRules s call g e rules m).Meets allowed
      fun r => Derives s R (.rules (s.frame d g e) rules m.position r) := by
  induction rules generalizing m with
  | nil => exact .noRule
  | cons rule rules ih =>
    have h := meets_matchRule (g := g) (e := e) hcall rule m hd
    refine h.orElse (exact_matchRule s hcall.exact rule m) (fun m' hp hd' hf => ?_)
      fun _ hne hr => .chosen hr hne
    have hrest := ih m' (hd'.trans hd)
    rw [hp] at hrest
    exact hrest.mono fun _ hr => .next hf hr

theorem meets_matchInside (g : Grammar τ) (e : Expression τ) (m : Machine τ) (hd : m.depth = d) :
    (matchInside s call g e m).Meets allowed
      fun r => Derives s R (.rules (s.frame d g e) e.rules m.position r) := by
  have h := meets_matchRules (g := g) (e := e) hcall e.rules (m.enter e) (congrArg (· + 1) hd)
  unfold matchInside
  generalize matchRules s call g e e.rules (m.enter e) = r at h
  obtain ⟨o, m'⟩ := r
  cases o <;> exact h

end

end OrderedChoice
