import OrderedChoice.Proofs.Semantics.Soundness

/-!
# Whatever a grammar means, a run of the machine finds

The converse of `meets_matchInside`: when the matcher that is called comes to all that `R` says of
expressions, each function of the engine comes to all that the rules of `Derives s R` derive
(`Derives.runs`).  The machine enters only with its place in the text and its depth.
-/

namespace OrderedChoice

variable {τ : Type}

namespace Attempt

variable {α β : Type} {r : Attempt τ α} {start q : Position} {d : Nat}

theorem Exact.eq_of_ok {a : α} (hx : r.Exact start d) (h : r.result? = some (.ok a q)) :
    ∃ m, r = ⟨.matched a, m⟩ ∧ m.position = q ∧ m.depth = d := by
  obtain ⟨o, m⟩ := r
  cases o with
  | matched b =>
    obtain ⟨rfl, rfl⟩ : b = a ∧ m.position = q := by simpa [result?] using h
    exact ⟨m, rfl, rfl, hx.2⟩
  | mismatch => cases h
  | error e => cases h
  | endless => cases h

theorem Exact.eq_of_fail (hx : r.Exact start d) (h : r.result? = some .fail) :
    ∃ m, r = ⟨.mismatch, m⟩ ∧ m.position = start ∧ m.depth = d := by
  obtain ⟨o, m⟩ := r
  cases o with
  | matched b => cases h
  | mismatch => exact ⟨m, rfl, hx⟩
  | error e => cases h
  | endless => cases h

theorem eq_of_err {e : GrammarError} (h : r.result? = some (.err e)) : ∃ m, r = ⟨.error e, m⟩ := by
  obtain ⟨o, m⟩ := r
  cases o with
  | matched b => cases h
  | mismatch => cases h
  | error e' => cases h; exact ⟨m, rfl⟩
  | endless => cases h

theorem result?_map {res : Result α} (h : r.result? = some res) (f : α → β) :
    (r.andThen fun a m => ⟨.matched (f a), m⟩).result? = some (res.map f) := by
  obtain ⟨o, m⟩ := r
  cases o <;> cases h <;> rfl

theorem result?_andThen_fail (h : r.result? = some .fail) (f : α → Machine τ → Attempt τ β) :
    (r.andThen f).result? = some .fail := by
  obtain ⟨o, m⟩ := r
  cases o <;> cases h
  rfl

theorem result?_andThen_err {e : GrammarError} (h : r.result? = some (.err e))
    (f : α → Machine τ → Attempt τ β) : (r.andThen f).result? = some (.err e) := by
  obtain ⟨o, m⟩ := r
  cases o <;> cases h
  rfl

theorem result?_orElse {res : Result α} (h : r.result? = some res) (hne : res ≠ .fail)
    (f : Machine τ → Attempt τ α) : (r.orElse f).result? = some res := by
  obtain ⟨o, m⟩ := r
  cases o with
  | matched a => exact h
  | mismatch => cases h; exact absurd rfl hne
  | error e => exact h
  | endless => cases h

end Attempt

/-- What a judgement says of the engine: begun at its place and at some depth, with any log and
any expression, rule and symbol at hand, the construct comes to the result. -/
def Judgement.Runs (s : Setting τ) (call : Matcher τ) (d : Nat) : Judgement τ → Prop
  | repetition f p r => ∀ m bound, m.position = p → m.depth = d → p.rest.length < bound →
      (matchRepeatedly (call f.grammar f.expression) bound m).result? = some r
  | quantified q f p r => ∀ m, m.position = p → m.depth = d →
      (matchQuantified (call f.grammar f.expression) q m).result? = some r
  | symbol f x p r => ∀ m, m.position = p → m.depth = d →
      (matchSymbol call f.grammar f.expression x m).result? = some r
  | symbols f xs p r => ∀ rule start m, start.Reaches p → m.position = p → m.depth = d →
      (matchSymbols call f.grammar f.expression rule start xs m).result? = some r
  | rule f x p r => ∀ m, m.position = p → m.depth = d →
      (matchRule s call f.grammar f.expression x m).result? = some r
  | rules f xs p r => ∀ m, m.position = p → m.depth = d →
      (matchRules s call f.grammar f.expression xs m).result? = some r

section

variable {s : Setting τ} {call : Matcher τ} {g : Grammar τ} {e : Expression τ} {x : Symbol}
  {r : Result Value} {m : Machine τ}

theorem result?_matchTerminal {t : Terminal} {q : Quantifier} (h : t.Takes q m.position r) :
    (matchTerminal t q m).result? = some r := by
  rw [Terminal.takes_iff.1 h]
  unfold matchTerminal Terminal.result
  cases t.taken? q m.position.rest <;> rfl

theorem result?_matchSymbol (h : (matchKind call g e x m).result? = some r) :
    (matchSymbol call g e x m).result? = some r := by
  unfold matchSymbol
  generalize matchKind call g e x m = a at h
  obtain ⟨o, m'⟩ := a
  cases o <;> exact h

/-- A rule whose symbols have matched ends in its value. -/
theorem result?_matchRule {x : Rule τ} {args : List Value} {q : Position}
    (h : (matchSymbols call g e x m.position x.symbols (m.atRule x)).result? =
      some (.ok args q)) :
    (matchRule s call g e x m).result? =
      some (.ok (ruleValue s.meaning args ⟨g, e, x, s.input, m.position, q⟩) q) := by
  unfold matchRule
  generalize matchSymbols call g e x m.position x.symbols (m.atRule x) = a at h
  obtain ⟨o, m'⟩ := a
  cases o with
  | matched vs =>
    obtain ⟨rfl, rfl⟩ : vs = args ∧ m'.position = q := by simpa [Attempt.result?] using h
    simp only [Attempt.andThen_matched, Attempt.result?, finishRule_position]
    rfl
  | mismatch => cases h
  | error err => cases h
  | endless => cases h

theorem matchKind_reference {f : Frame τ} {f' : Frame τ} {ref : Reference}
    (hk : x.kind = .reference ref) (hf : f.resolve ref = .ok f') :
    matchKind call f.grammar f.expression x m =
      matchQuantified (call f'.grammar f'.expression) x.quantifier m := by
  unfold matchKind Frame.resolve at *
  rw [hk]
  dsimp only
  split
  · rename_i g' e' hr
    rw [hr] at hf
    cases hf
    rfl
  · rename_i err hr
    rw [hr] at hf
    cases hf

theorem matchKind_unresolved {f : Frame τ} {ref : Reference} {err : GrammarError}
    (hk : x.kind = .reference ref) (hf : f.resolve ref = .error err) :
    matchKind call f.grammar f.expression x m = ⟨.error err, m.reportError err⟩ := by
  unfold matchKind Frame.resolve at *
  rw [hk]
  dsimp only
  split
  · rename_i g' e' hr
    rw [hr] at hf
    cases hf
  · rename_i err' hr
    rw [hr] at hf
    cases hf
    rfl

end

/-- **Every derivation is run.** -/
theorem Derives.runs {s : Setting τ} {R : Semantics τ} {J : Judgement τ} {call : Matcher τ}
    {d : Nat} (hx : call.Exact)
    (hcall : ∀ f p r, R f p r → ∀ m, m.position = p → m.depth = d →
      (call f.grammar f.expression m).result? = some r)
    (h : Derives s R J) : J.Runs s call d := by
  induction h with
  -- repetitions: a bound of zero would have to be above the length of some text
  | repeatEnd hR =>
    rintro m (_ | bound) rfl hd hb
    · exact absurd hb (Nat.not_lt_zero _)
    obtain ⟨m', hm', hp, -⟩ := (hx _ _ m).eq_of_fail (hcall _ _ _ hR m rfl hd)
    simp only [matchRepeatedly, hm', Attempt.result?, hp]
  | repeatIdle hR ho =>
    rintro m (_ | bound) rfl hd hb
    · exact absurd hb (Nat.not_lt_zero _)
    obtain ⟨m', hm', rfl, -⟩ := (hx _ _ m).eq_of_ok (hcall _ _ _ hR m rfl hd)
    simp only [matchRepeatedly, hm', Machine.cursor, ho, ↓reduceIte]
    rfl
  | @repeatOn f p q v r hR ho _ ih =>
    rintro m (_ | bound) rfl hd hb
    · exact absurd hb (Nat.not_lt_zero _)
    have hm := hx f.grammar f.expression m
    obtain ⟨m', hm', rfl, hd'⟩ := hm.eq_of_ok (hcall _ _ _ hR m rfl hd)
    rw [hm'] at hm
    -- the round has moved on, so what is left of the bound is enough for what is left of the text
    have hlt : m'.position.rest.length < m.position.rest.length := hm.reaches.length_lt ho
    have hrest := ih m' bound rfl (hd'.trans hd) (by omega)
    simp only [matchRepeatedly, hm', Machine.cursor, ho, ↓reduceIte]
    exact Attempt.result?_map hrest _
  | repeatError hR =>
    rintro m (_ | bound) rfl hd hb
    · exact absurd hb (Nat.not_lt_zero _)
    obtain ⟨m', hm'⟩ := Attempt.eq_of_err (hcall _ _ _ hR m rfl hd)
    simp only [matchRepeatedly, hm', Attempt.result?]
  -- quantifiers
  | one hR => exact fun m hp hd => hcall _ _ _ hR m hp hd
  | optional hR hne =>
    rintro m rfl hd
    exact Attempt.result?_orElse (hcall _ _ _ hR m rfl hd) hne _
  | absent hR =>
    rintro m rfl hd
    obtain ⟨m', hm', hp, -⟩ := (hx _ _ m).eq_of_fail (hcall _ _ _ hR m rfl hd)
    simp only [matchQuantified, hm', Attempt.orElse_mismatch, Attempt.result?, hp]
  | @zeroOrMore f p r _ ih =>
    rintro m rfl hd
    have hr := ih m _ rfl hd (Nat.lt_succ_self _)
    simp only [matchQuantified, Quantifier.allowsNone, Bool.not_true, Bool.and_false,
      Bool.false_eq_true, ↓reduceIte]
    exact Attempt.result?_map hr _
  | @oneOrMore f p r _ hne ih =>
    rintro m rfl hd
    have hr := ih m _ rfl hd (Nat.lt_succ_self _)
    unfold matchQuantified
    generalize matchRepeatedly (call f.grammar f.expression) _ m = a at hr
    obtain ⟨o, m'⟩ := a
    cases o with
    | matched vs =>
      cases hr
      cases vs with
      | nil => exact absurd rfl (hne _)
      | cons v vs => rfl
    | mismatch => cases hr; rfl
    | error err => cases hr; rfl
    | endless => cases hr
  | @tooFew f p q _ ih =>
    rintro m rfl hd
    have hr := ih m _ rfl hd (Nat.lt_succ_self _)
    have hrx := exact_matchRepeatedly (hx f.grammar f.expression) (m.position.rest.length + 1) m
      (.refl _)
    obtain ⟨m', hm', -, -⟩ := hrx.eq_of_ok hr
    simp only [matchQuantified, hm']
    rfl
  -- single symbols
  | literal hk ht =>
    rintro m rfl hd
    refine result?_matchSymbol ?_
    simp only [matchKind, hk]
    exact result?_matchTerminal ht
  | pattern hk ht =>
    rintro m rfl hd
    refine result?_matchSymbol ?_
    simp only [matchKind, hk]
    exact result?_matchTerminal ht
  | reference hk hf _ ih =>
    intro m hp hd
    refine result?_matchSymbol ?_
    rw [matchKind_reference hk hf]
    exact ih m hp hd
  | unresolved hk hf =>
    intro m hp hd
    refine result?_matchSymbol ?_
    rw [matchKind_unresolved hk hf]
    rfl
  -- sequences of symbols: by exactness each begins where the one before it has ended
  | done =>
    rintro rule start m - rfl hd
    rfl
  | @kept f x xs p q v r hl _ _ ih ih' =>
    rintro rule start m hs rfl hd
    have hm := exact_matchSymbol (g := f.grammar) (e := f.expression) hx x (m.atSymbol x)
    obtain ⟨m', hm', rfl, hd'⟩ := hm.eq_of_ok (ih (m.atSymbol x) rfl hd)
    rw [hm'] at hm
    have hrest := ih' rule start m' (hs.trans hm.1) rfl (hd'.trans hd)
    unfold matchSymbols
    rw [hm']
    cases hl' : x.lookahead with
    | consume => exact Attempt.result?_map hrest _
    | assert => exact absurd hl' hl
    | lenient => exact Attempt.result?_map hrest _
  | @givenBack f x xs p q v r hl _ _ ih ih' =>
    rintro rule start m hs rfl hd
    have hm := exact_matchSymbol (g := f.grammar) (e := f.expression) hx x (m.atSymbol x)
    obtain ⟨m', hm', -, hd'⟩ := hm.eq_of_ok (ih (m.atSymbol x) rfl hd)
    have hrest := ih' rule start (m'.moveTo m.position) hs rfl (hd'.trans hd)
    unfold matchSymbols
    rw [hm', hl]
    exact Attempt.result?_map hrest _
  | @passedOver f x xs p r hl _ _ ih ih' =>
    rintro rule start m hs rfl hd
    have hm := exact_matchSymbol (g := f.grammar) (e := f.expression) hx x (m.atSymbol x)
    obtain ⟨m', hm', -, hd'⟩ := hm.eq_of_fail (ih (m.atSymbol x) rfl hd)
    have hrest := ih' rule start (m'.moveTo m.position) hs rfl (hd'.trans hd)
    unfold matchSymbols
    rw [hm', hl]
    exact Attempt.result?_map hrest _
  | @failed f x xs p hl _ ih =>
    rintro rule start m hs rfl hd
    have hm := exact_matchSymbol (g := f.grammar) (e := f.expression) hx x (m.atSymbol x)
    obtain ⟨m', hm', -, -⟩ := hm.eq_of_fail (ih (m.atSymbol x) rfl hd)
    unfold matchSymbols
    rw [hm']
    cases hl' : x.lookahead with
    | consume => rfl
    | assert => rfl
    | lenient => exact absurd hl' hl
  | @broken f x xs p err _ ih =>
    rintro rule start m hs rfl hd
    obtain ⟨m', hm'⟩ := Attempt.eq_of_err (ih (m.atSymbol x) rfl hd)
    unfold matchSymbols
    rw [hm']
    cases x.lookahead <;> rfl
  -- rules
  | @transformed f x t p q args ht _ ih =>
    rintro m rfl hd
    have hr := result?_matchRule (s := s) (ih x m.position (m.atRule x) (.refl _) rfl hd)
    simp only [ruleValue, ht] at hr
    exact hr
  | @plain f x p q args text ht _ hs ih =>
    rintro m rfl hd
    have hr := result?_matchRule (s := s) (ih x m.position (m.atRule x) (.refl _) rfl hd)
    simp only [ruleValue, ht, Context.matchedText, hs.textTo] at hr
    exact hr
  | ruleFails _ ih =>
    rintro m rfl hd
    exact Attempt.result?_andThen_fail (ih _ m.position (m.atRule _) (.refl _) rfl hd) _
  | ruleError _ ih =>
    rintro m rfl hd
    exact Attempt.result?_andThen_err (ih _ m.position (m.atRule _) (.refl _) rfl hd) _
  -- lists of rules: a rule that fails gives back the place from which the next one starts
  | noRule =>
    rintro m rfl hd
    rfl
  | chosen _ hne ih =>
    rintro m rfl hd
    exact Attempt.result?_orElse (ih m rfl hd) hne _
  | @next f x xs p r _ _ ih ih' =>
    rintro m rfl hd
    have hm := exact_matchRule (g := f.grammar) (e := f.expression) s hx x m
    obtain ⟨m', hm', hp, hd'⟩ := hm.eq_of_fail (ih m rfl hd)
    unfold matchRules
    rw [hm']
    exact ih' m' hp (hd'.trans hd)

end OrderedChoice
