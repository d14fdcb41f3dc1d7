import OrderedChoice.Proofs.Semantics.Nesting

/-!
# One part after the other

A rule goes through its symbols and an expression through its rules.  What a rule makes of a symbol
depends on its lookahead (`Lookahead.keeps`), and then the rule goes on behind it or ends there
(`Result.Then`).

* `Derives.symbols_cons_iff`, `Derives.rules_cons_iff`, `Derives.rules_append_iff`: what sequences
  and choices come to, part by part;
* `result?_matchSymbols_iff` and its neighbours: inside an expression the engine makes of symbols
  and rules what is derived within its bound, and nothing else, so that they come to one thing at
  most (`Derives.symbol_unique`, `Derives.rule_unique`).
-/

namespace OrderedChoice

variable {τ : Type}

/-- What a rule makes of the result of a symbol that was tried at a place. -/
def Lookahead.keeps (l : Lookahead) (p : Position) : Result Value → Result Value
  | .ok v q => if l = .assert then .ok .null p else .ok v q
  | .fail => if l = .lenient then .ok .null p else .fail
  | .err e => .err e

/-- Something goes on after a success, and ends with any other result. -/
def Result.Then {α β : Type} (c : Result α) (X : α → Position → Result β → Prop)
    (r : Result β) : Prop :=
  match c with
  | ok a q => X a q r
  | fail => r = fail
  | err e => r = err e

namespace Derives

variable {s : Setting τ} {R : Semantics τ} {f : Frame τ} {p q : Position} {x : Symbol}
  {xs ys : List Symbol} {r : Result (List Value)}

/-! ### Symbols -/

/-- A sequence comes to what its first symbol lets it come to. -/
theorem symbols_cons_iff : Derives s R (.symbols f (x :: xs) p r) ↔
    ∃ c, Derives s R (.symbol f x p c) ∧ (x.lookahead.keeps p c).Then
      (fun v q r => ∃ r', Derives s R (.symbols f xs q r') ∧ r = r'.map (v :: ·)) r := by
  constructor
  · intro h
    cases h with
    | @kept _ _ _ _ q v r hl hx hxs =>
      refine ⟨_, hx, ?_⟩
      simp only [Lookahead.keeps, if_neg hl]
      exact ⟨r, hxs, rfl⟩
    | @givenBack _ _ _ _ q v r hl hx hxs =>
      refine ⟨_, hx, ?_⟩
      simp only [Lookahead.keeps, if_pos hl]
      exact ⟨r, hxs, rfl⟩
    | @passedOver _ _ _ _ r hl hx hxs =>
      refine ⟨_, hx, ?_⟩
      simp only [Lookahead.keeps, if_pos hl]
      exact ⟨r, hxs, rfl⟩
    | failed hl hx =>
      refine ⟨_, hx, ?_⟩
      simp only [Lookahead.keeps, if_neg hl]
      exact rfl
    | broken hx => exact ⟨_, hx, rfl⟩
  · rintro ⟨c, hx, h⟩
    cases c with
    | ok v q =>
      by_cases hl : x.lookahead = .assert
      · simp only [Lookahead.keeps, if_pos hl] at h
        obtain ⟨r', hxs, rfl⟩ := h
        exact .givenBack hl hx hxs
      · simp only [Lookahead.keeps, if_neg hl] at h
        obtain ⟨r', hxs, rfl⟩ := h
        exact .kept hl hx hxs
    | fail =>
      by_cases hl : x.lookahead = .lenient
      · simp only [Lookahead.keeps, if_pos hl] at h
        obtain ⟨r', hxs, rfl⟩ := h
        exact .passedOver hl hx hxs
      · simp only [Lookahead.keeps, if_neg hl] at h
        obtain rfl : r = .fail := h
        exact .failed hl hx
    | err e =>
      obtain rfl : r = .err e := h
      exact .broken hx

/-- A sequence succeeds if its first symbol lets it go on and the others succeed from there. -/
theorem symbols_cons_ok_iff {vs : List Value} : Derives s R (.symbols f (x :: xs) p (.ok vs q)) ↔
    ∃ u us m, vs = u :: us ∧
      (∃ c, Derives s R (.symbol f x p c) ∧ x.lookahead.keeps p c = .ok u m) ∧
      Derives s R (.symbols f xs m (.ok us q)) := by
  rw [symbols_cons_iff]
  constructor
  · rintro ⟨c, hx, h⟩
    cases hc : x.lookahead.keeps p c with
    | ok u m =>
      rw [hc] at h
      obtain ⟨r', hxs, hr⟩ := h
      cases r' with
      | ok us q' =>
        cases hr
        exact ⟨u, us, m, rfl, ⟨c, hx, hc⟩, hxs⟩
      | fail | err => cases hr
    | fail | err =>
      rw [hc] at h
      cases h
  · rintro ⟨u, us, m, rfl, ⟨c, hx, hc⟩, hxs⟩
    refine ⟨c, hx, ?_⟩
    rw [hc]
    exact ⟨.ok us q, hxs, rfl⟩

/-- What begins with symbols that fail fails. -/
theorem symbols_append_fail (h : Derives s R (.symbols f xs p .fail)) (ys : List Symbol) :
    Derives s R (.symbols f (xs ++ ys) p .fail) := by
  induction xs generalizing p with
  | nil => cases h
  | cons x xs ih =>
    obtain ⟨c, hx, h⟩ := symbols_cons_iff.1 h
    refine symbols_cons_iff.2 ⟨c, hx, ?_⟩
    generalize x.lookahead.keeps p c = c at h ⊢
    cases c with
    | ok v q =>
      obtain ⟨r', hxs, hr⟩ := h
      cases r' with
      | fail => exact ⟨.fail, ih hxs, rfl⟩
      | ok => cases hr
      | err => cases hr
    | fail => exact rfl
    | err e => cases h

/-! ### Rules -/

section

variable {x : Rule τ} {xs ys : List (Rule τ)} {r : Result Value}

theorem rules_cons_iff : Derives s R (.rules f (x :: xs) p r) ↔
    (Derives s R (.rule f x p r) ∧ r ≠ .fail) ∨
    (Derives s R (.rule f x p .fail) ∧ Derives s R (.rules f xs p r)) := by
  constructor
  · intro h
    cases h with
    | chosen hx hne => exact .inl ⟨hx, hne⟩
    | next hx hxs => exact .inr ⟨hx, hxs⟩
  · rintro (⟨hx, hne⟩ | ⟨hx, hxs⟩)
    · exact .chosen hx hne
    · exact .next hx hxs

theorem rules_append_iff : Derives s R (.rules f (xs ++ ys) p r) ↔
    (Derives s R (.rules f xs p r) ∧ r ≠ .fail) ∨
    (Derives s R (.rules f xs p .fail) ∧ Derives s R (.rules f ys p r)) := by
  induction xs with
  | nil =>
    constructor
    · exact fun h => .inr ⟨.noRule, h⟩
    · rintro (⟨h, hne⟩ | ⟨-, h⟩)
      · cases h
        exact absurd rfl hne
      · exact h
  | cons x xs ih =>
    simp only [List.cons_append, rules_cons_iff, ih, ne_eq, not_true_eq_false, and_false, false_or,
      and_or_left, or_and_right, and_assoc, and_self, or_assoc]

end

end Derives

/-! ### The engine inside an expression -/

section

variable {s : Setting τ} {n d : Nat} {g : Grammar τ} {e : Expression τ} {m : Machine τ}
  {p : Position}

/-- Whatever is derived for the references of a frame is run. -/
theorem Derives.runs_within {J : Judgement τ} (h : Derives s (Within s n) J)
    (hJ : ∀ f p, J.Calls f p → ∃ ref, (s.frame d g e).resolve ref = .ok f) :
    J.Runs s (matchExpression s n) (d + 1) := by
  refine h.runs_inside (exact_matchExpression s n) (fun _ _ _ => Within.isAheadOf)
    (fun g e m r hd hr => ?_) fun f p hc => ?_
  · rw [result?_matchExpression, hd]
    exact hr
  · obtain ⟨ref, href⟩ := hJ f p hc
    exact Setting.frame_resolve href

theorem result?_matchSymbol_iff {x : Symbol} {r : Result Value} (hd : m.depth = d + 1) :
    (matchSymbol (matchExpression s n) g e x m).result? = some r ↔
      Derives s (Within s n) (.symbol (s.frame d g e) x m.position r) :=
  ⟨(meets_matchSymbol (follows_within s n (d + 1)) x m hd).of_result?,
    fun h => h.runs_within (fun _ _ hc => hc.1) m rfl hd⟩

theorem result?_matchSymbols_iff {rule : Rule τ} {start : Position} {xs : List Symbol}
    {r : Result (List Value)} (hs : start.Reaches m.position) (hd : m.depth = d + 1) :
    (matchSymbols (matchExpression s n) g e rule start xs m).result? = some r ↔
      Derives s (Within s n) (.symbols (s.frame d g e) xs m.position r) :=
  ⟨(meets_matchSymbols (follows_within s n (d + 1)) rule start xs m hd).of_result?,
    fun h => h.runs_within (fun _ _ hc => hc.1) rule start m hs rfl hd⟩

theorem result?_matchRule_iff {rule : Rule τ} {r : Result Value} (hd : m.depth = d + 1) :
    (matchRule s (matchExpression s n) g e rule m).result? = some r ↔
      Derives s (Within s n) (.rule (s.frame d g e) rule m.position r) :=
  ⟨(meets_matchRule (follows_within s n (d + 1)) rule m hd).of_result?,
    fun h => h.runs_within (fun _ _ hc => hc.1) m rfl hd⟩

/-- A machine at a place, inside an expression. -/
def Machine.inside (p : Position) (d : Nat) : Machine τ := ⟨p, d + 1, .none, []⟩

/-- A symbol comes to one thing at most, as both are the result of one run. -/
theorem Derives.symbol_unique {x : Symbol} {r r' : Result Value}
    (h : Derives s (Within s n) (.symbol (s.frame d g e) x p r))
    (h' : Derives s (Within s n) (.symbol (s.frame d g e) x p r')) : r = r' := by
  have hrun : ∀ {r}, Derives s (Within s n) (.symbol (s.frame d g e) x p r) →
      (matchSymbol (matchExpression s n) g e x (.inside p d)).result? = some r :=
    (result?_matchSymbol_iff (m := .inside p d) rfl).2
  exact Option.some.inj ((hrun h).symm.trans (hrun h'))

theorem Derives.rule_unique {rule : Rule τ} {r r' : Result Value}
    (h : Derives s (Within s n) (.rule (s.frame d g e) rule p r))
    (h' : Derives s (Within s n) (.rule (s.frame d g e) rule p r')) : r = r' := by
  have hrun : ∀ {r}, Derives s (Within s n) (.rule (s.frame d g e) rule p r) →
      (matchRule s (matchExpression s n) g e rule (.inside p d)).result? = some r :=
    (result?_matchRule_iff (m := .inside p d) rfl).2
  exact Option.some.inj ((hrun h).symm.trans (hrun h'))

end

end OrderedChoice
