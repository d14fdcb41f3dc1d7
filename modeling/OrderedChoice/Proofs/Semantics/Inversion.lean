import OrderedChoice.Proofs.Semantics.Basic

/-!
# Where a success comes from

Inversion of the rules of `Derives`: a value of some construct has been made of the values of its
parts.  The results in the rules are not constructors, so each lemma first names the result.
-/

namespace OrderedChoice

variable {τ : Type} {s : Setting τ} {R : Semantics τ} {f : Frame τ} {p q : Position} {v : Value}
  {vs : List Value} {x : Symbol} {xs : List Symbol}

/-- A sequence that succeeds has a value for its first symbol and values for the others, from where
the first has led: it is kept, it is given back, or its failure does not matter. -/
theorem Derives.symbols_cons_cases (h : Derives s R (.symbols f (x :: xs) p (.ok vs q))) :
    ∃ (u : Value) (us : List Value) (m : Position), vs = u :: us ∧
      Derives s R (.symbols f xs m (.ok us q)) ∧
      ((x.lookahead ≠ .assert ∧ Derives s R (.symbol f x p (.ok u m))) ∨
        (x.lookahead = .assert ∧ u = .null ∧ m = p) ∨
        (x.lookahead = .lenient ∧ u = .null ∧ m = p ∧ Derives s R (.symbol f x p .fail))) := by
  generalize hres : Result.ok vs q = res at h
  -- in each case the values of the others show only once their result is known to be a success
  cases h with
  | @kept _ _ _ _ m u r hl hx hxs =>
    cases r with
    | ok us q' =>
      cases hres
      exact ⟨u, us, m, rfl, hxs, .inl ⟨hl, hx⟩⟩
    | fail => cases hres
    | err e => cases hres
  | @givenBack _ _ _ _ m u r hl hx hxs =>
    cases r with
    | ok us q' =>
      cases hres
      exact ⟨.null, us, p, rfl, hxs, .inr (.inl ⟨hl, rfl, rfl⟩)⟩
    | fail => cases hres
    | err e => cases hres
  | @passedOver _ _ _ _ r hl hx hxs =>
    cases r with
    | ok us q' =>
      cases hres
      exact ⟨.null, us, p, rfl, hxs, .inr (.inr ⟨hl, rfl, rfl, hx⟩)⟩
    | fail => cases hres
    | err e => cases hres
  | failed => cases hres
  | broken => cases hres

/-- A sequence has a value for its first symbol, if that is kept, and values for the others. -/
theorem Derives.of_symbols_cons (h : Derives s R (.symbols f (x :: xs) p (.ok vs q)))
    (hl : x.lookahead = .consume) :
    ∃ (u : Value) (us : List Value) (m : Position), vs = u :: us ∧
      Derives s R (.symbol f x p (.ok u m)) ∧ Derives s R (.symbols f xs m (.ok us q)) := by
  obtain ⟨u, us, m, rfl, hxs, ⟨-, hx⟩ | ⟨hl', -⟩ | ⟨hl', -⟩⟩ := h.symbols_cons_cases
  · exact ⟨u, us, m, rfl, hx, hxs⟩
  · rw [hl] at hl'
    cases hl'
  · rw [hl] at hl'
    cases hl'

/-- What comes of a symbol that must match, and of those behind it. -/
theorem Derives.symbols_cons_inv {r : Result (List Value)} (hl : x.lookahead = .consume)
    (h : Derives s R (.symbols f (x :: xs) p r)) :
    (∃ v q r', Derives s R (.symbol f x p (.ok v q)) ∧ Derives s R (.symbols f xs q r') ∧
      r = r'.map (v :: ·)) ∨
    (Derives s R (.symbol f x p .fail) ∧ r = .fail) ∨
    ∃ err, Derives s R (.symbol f x p (.err err)) ∧ r = .err err := by
  cases h with
  | kept _ hx hxs => exact .inl ⟨_, _, _, hx, hxs, rfl⟩
  | givenBack hl' => cases hl.symm.trans hl'
  | passedOver hl' => cases hl.symm.trans hl'
  | failed _ hx => exact .inr (.inl ⟨hx, rfl⟩)
  | broken hx => exact .inr (.inr ⟨_, hx, rfl⟩)

/-- A reference that has a value leads somewhere. -/
theorem Derives.of_reference {ref : Reference} (h : Derives s R (.symbol f x p (.ok v q)))
    (hk : x.kind = .reference ref) :
    ∃ f', f.resolve ref = .ok f' ∧ Derives s R (.quantified x.quantifier f' p (.ok v q)) := by
  cases h with
  | literal hk' => rw [hk] at hk'; cases hk'
  | pattern hk' => rw [hk] at hk'; cases hk'
  | reference hk' hf hq =>
    rw [hk] at hk'
    cases hk'
    exact ⟨_, hf, hq⟩

/-- A reference that leads somewhere comes to what is there, as often as its quantifier says. -/
theorem Derives.quantified_of_reference {ref : Reference} {f' : Frame τ} {r : Result Value}
    (h : Derives s R (.symbol f x p r)) (hk : x.kind = .reference ref)
    (hf : f.resolve ref = .ok f') : Derives s R (.quantified x.quantifier f' p r) := by
  cases h with
  | literal hk' => cases hk.symm.trans hk'
  | pattern hk' => cases hk.symm.trans hk'
  | reference hk' hf' h =>
    cases hk.symm.trans hk'
    cases hf.symm.trans hf'
    exact h
  | unresolved hk' he =>
    cases hk.symm.trans hk'
    cases hf.symm.trans he

/-- The value of a repeated expression is a list. -/
theorem Derives.of_zeroOrMore (h : Derives s R (.quantified .zeroOrMore f p (.ok v q))) :
    ∃ vs, v = .list vs ∧ Derives s R (.repetition f p (.ok vs q)) := by
  generalize hres : Result.ok v q = res at h
  cases h with
  | @zeroOrMore _ _ r h =>
    cases r with
    | ok vs q' =>
      cases hres
      exact ⟨vs, rfl, h⟩
    | fail => cases hres
    | err e => cases hres

/-- Each item of a repetition is a value of the expression. -/
theorem Derives.of_repetition (h : Derives s R (.repetition f p (.ok vs q))) :
    ∀ u ∈ vs, ∃ p' q', R f p' (.ok u q') := by
  -- of all judgements again, for the sake of the induction
  have hJ : ∀ J, Derives s R J → ∀ f p r, J = .repetition f p r →
      ∀ vs q, r = .ok vs q → ∀ u ∈ vs, ∃ p' q', R f p' (.ok u q') := by
    intro J d
    induction d with
    | repeatEnd =>
      rintro _ _ _ ⟨⟩ _ _ ⟨⟩ u hu
      cases hu
    | repeatIdle h =>
      rintro _ _ _ ⟨⟩ _ _ ⟨⟩ u hu
      obtain rfl := List.mem_singleton.1 hu
      exact ⟨_, _, h⟩
    | @repeatOn _ _ _ _ r h _ _ ih =>
      rintro _ _ _ ⟨⟩ _ _ hr u hu
      cases r with
      | ok us q' =>
        cases hr
        rcases List.mem_cons.1 hu with rfl | hu
        · exact ⟨_, _, h⟩
        · exact ih _ _ _ rfl _ _ rfl u hu
      | fail => cases hr
      | err e => cases hr
    | repeatError =>
      rintro _ _ _ ⟨⟩ _ _ hr
      cases hr
    | _ =>
      rintro _ _ _ hJ
      cases hJ
  exact hJ _ h f p _ rfl vs q rfl

/-- The value of a list of rules is the value of one of them. -/
theorem Derives.of_rules {rules : List (Rule τ)} (h : Derives s R (.rules f rules p (.ok v q))) :
    ∃ rule ∈ rules, Derives s R (.rule f rule p (.ok v q)) := by
  induction rules with
  | nil => cases h
  | cons rule rules ih =>
    cases h with
    | chosen h => exact ⟨rule, List.mem_cons_self, h⟩
    | next _ h =>
      obtain ⟨rule', hmem, h'⟩ := ih h
      exact ⟨rule', List.mem_cons_of_mem rule hmem, h'⟩

/-- The value of a rule with a transform is made of the values of its symbols. -/
theorem Derives.of_transform {rule : Rule τ} {t : τ} (h : Derives s R (.rule f rule p (.ok v q)))
    (ht : rule.transform = some t) :
    ∃ args, Derives s R (.symbols f rule.symbols p (.ok args q)) ∧
      v = s.meaning t args (f.context s rule p q) := by
  cases h with
  | transformed ht' h =>
    rw [ht] at ht'
    cases ht'
    exact ⟨_, h, rfl⟩
  | plain ht' => rw [ht] at ht'; cases ht'

theorem Matches.of_ok (h : Matches s f p (.ok v q)) :
    ∃ rule ∈ f.expression.rules, Derives s (Matches s) (.rule f rule p (.ok v q)) := by
  cases h with
  | inside _ h => exact h.of_rules

end OrderedChoice
