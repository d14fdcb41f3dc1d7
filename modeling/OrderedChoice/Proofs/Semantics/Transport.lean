import Mathlib.Data.List.Forall2
import OrderedChoice.Proofs.Semantics.Inversion

/-!
# What a grammar means elsewhere

Two derivations about places of two texts, in two grammars, can be held against each other construct
by construct.  A `Transport` says which places go together and which error is told for which;
`T.Carried X X'` says that whatever something comes to at a place, what stands for it comes to the
same at the place that goes with it.

If all expressions that are called are carried then so are repetitions, quantifiers and single
symbols (`Transport.carried_quantified`, `Transport.carried_symbol`).  Sequences of symbols, rules
and lists of rules are carried if their members are (`Transport.carried_symbols`,
`Transport.carried_rules`), whatever stands for a symbol: it may be another symbol.

What a transform makes of its arguments may depend on where it is applied.
`g.Respects meaning Alike` says that the transforms of a grammar tell no two contexts apart that are
alike.
-/

namespace OrderedChoice

variable {τ α β : Type}

/-! ### What transforms tell apart -/

/-- The rule of the context is one of the grammar or of a part of it. -/
structure Context.IsOf (c : Context τ) (g : Grammar τ) : Prop where
  isPartOf : c.grammar.IsPartOf g
  expression_mem : c.expression ∈ c.grammar.expressions
  rule_mem : c.rule ∈ c.expression.rules

/-- The transforms of the grammar come to the same in contexts that are alike. -/
def Grammar.Respects (g : Grammar τ) (meaning : Meaning τ) (Alike : Context τ → Context τ → Prop) :
    Prop :=
  ∀ t args c c', c.IsOf g → c.rule.transform = some t → Alike c c' →
    meaning t args c = meaning t args c'

theorem Grammar.Respects.mono {g : Grammar τ} {meaning : Meaning τ}
    {Alike Alike' : Context τ → Context τ → Prop} (h : g.Respects meaning Alike)
    (halike : ∀ c c', Alike' c c' → Alike c c') : g.Respects meaning Alike' :=
  fun t args c c' hc ht hcc' => h t args c c' hc ht (halike c c' hcc')

/-! ### Places and results that go together -/

/-- The places that go together in two texts, and the errors that stand for errors. -/
structure Transport where
  Place : Position → Position → Prop
  blame : GrammarError → GrammarError
  rest_eq {p p' : Position} : Place p p' → p.rest = p'.rest
  unique {p p' q : Position} : Place p p' → Place p q → p' = q
  spans {p p' q : Position} {cs : List Char} : Place p p' → p.Spans cs q →
    ∃ q', Place q q' ∧ p'.Spans cs q'
  offset_eq_iff {p p' q q' : Position} : Place p p' → Place q q' →
    (q.offset = p.offset ↔ q'.offset = p'.offset)

namespace Transport

variable (T : Transport)

/-- The results are the same at places that go together. -/
inductive Carries : Result α → Result α → Prop
  | ok {a : α} {q q' : Position} : T.Place q q' → Carries (.ok a q) (.ok a q')
  | fail : Carries .fail .fail
  | err {e : GrammarError} : Carries (.err e) (.err (T.blame e))

/-- Whatever comes of the first at a place comes of the second at a place that goes with it. -/
def Carried (X X' : Position → Result α → Prop) : Prop :=
  ∀ ⦃p p' r⦄, T.Place p p' → X p r → ∃ r', T.Carries r r' ∧ X' p' r'

variable {T}

theorem Carries.map {r r' : Result α} (h : T.Carries r r') (f : α → β) :
    T.Carries (r.map f) (r'.map f) := by
  cases h with
  | ok hq => exact .ok hq
  | fail => exact .fail
  | err => exact .err

theorem Carries.eq_fail {r r' : Result α} (h : T.Carries r r') (hr : r' = .fail) : r = .fail := by
  cases h with
  | ok => cases hr
  | fail => rfl
  | err => cases hr

/-- Literals and patterns look at nothing but the text that is left. -/
theorem carried_takes (t : Terminal) (q : Quantifier) : T.Carried (t.Takes q) (t.Takes q) := by
  intro p p' r hp h
  have hrest := T.rest_eq hp
  cases h with
  | missing hb hq => exact ⟨_, .fail, .missing (hrest ▸ hb) hq⟩
  | absent hb hq => exact ⟨_, .ok hp, .absent (hrest ▸ hb) hq⟩
  | single hq ht hs =>
    obtain ⟨q', hq', hs'⟩ := T.spans hp hs
    exact ⟨_, .ok hq', .single hq ht hs'⟩
  | repeated hq hb hrun hs =>
    obtain ⟨q', hq', hs'⟩ := T.spans hp hs
    exact ⟨_, .ok hq', .repeated hq (hrest ▸ hb) (hrest ▸ hrun) hs'⟩

variable {s s' : Setting τ} {R S : Semantics τ} {f f' : Frame τ}

section

variable (hf : T.Carried (R f) (S f'))
include hf

/-- Rounds go together, and so the last one does. -/
theorem carried_repetition : T.Carried (fun p r => Derives s R (.repetition f p r))
    fun p r => Derives s' S (.repetition f' p r) := by
  have hJ : ∀ J, Derives s R J → ∀ p r, J = .repetition f p r → ∀ p', T.Place p p' →
      ∃ r', T.Carries r r' ∧ Derives s' S (.repetition f' p' r') := by
    intro J d
    induction d with
    | repeatEnd h =>
      rintro p r ⟨⟩ p' hp
      obtain ⟨_, ⟨⟩, h'⟩ := hf hp h
      exact ⟨_, .ok hp, .repeatEnd h'⟩
    | repeatIdle h ho =>
      rintro p r ⟨⟩ p' hp
      obtain ⟨_, ⟨hq⟩, h'⟩ := hf hp h
      exact ⟨_, .ok hq, .repeatIdle h' ((T.offset_eq_iff hp hq).1 ho)⟩
    | repeatOn h ho _ ih =>
      rintro p r ⟨⟩ p' hp
      obtain ⟨_, ⟨hq⟩, h'⟩ := hf hp h
      obtain ⟨r', hr, hrest⟩ := ih _ _ rfl _ hq
      exact ⟨_, hr.map _, .repeatOn h' (mt (T.offset_eq_iff hp hq).2 ho) hrest⟩
    | repeatError h =>
      rintro p r ⟨⟩ p' hp
      obtain ⟨_, ⟨⟩, h'⟩ := hf hp h
      exact ⟨_, .err, .repeatError h'⟩
    | _ =>
      rintro p r hJ
      cases hJ
  exact fun p p' r hp h => hJ _ h p r rfl p' hp

theorem carried_quantified (q : Quantifier) :
    T.Carried (fun p r => Derives s R (.quantified q f p r))
      fun p r => Derives s' S (.quantified q f' p r) := by
  have hrepeat : T.Carried (fun p r => Derives s R (.repetition f p r))
      fun p r => Derives s' S (.repetition f' p r) := carried_repetition hf
  intro p p' r hp h
  cases h with
  | one h =>
    obtain ⟨r', hr, h'⟩ := hf hp h
    exact ⟨r', hr, .one h'⟩
  | optional h hne =>
    obtain ⟨r', hr, h'⟩ := hf hp h
    exact ⟨r', hr, .optional h' (mt hr.eq_fail hne)⟩
  | absent h =>
    obtain ⟨_, ⟨⟩, h'⟩ := hf hp h
    exact ⟨_, .ok hp, .absent h'⟩
  | zeroOrMore h =>
    obtain ⟨r', hr, h'⟩ := hrepeat hp h
    exact ⟨_, hr.map _, .zeroOrMore h'⟩
  | oneOrMore h hne =>
    obtain ⟨r', hr, h'⟩ := hrepeat hp h
    refine ⟨_, hr.map _, .oneOrMore h' fun q hq => ?_⟩
    subst hq
    cases hr
    exact hne _ rfl
  | tooFew h =>
    obtain ⟨_, ⟨_⟩, h'⟩ := hrepeat hp h
    exact ⟨_, .fail, .tooFew h'⟩

end

/-! ### Symbols -/

/-- A symbol is carried if what it refers to is, or if it fails with the same error. -/
theorem carried_symbol {x : Symbol} (href : ∀ ref, x.kind = .reference ref →
    (∃ i i', f.resolve ref = .ok i ∧ f'.resolve ref = .ok i' ∧ T.Carried (R i) (S i')) ∨
    ∃ e, f.resolve ref = .error e ∧ f'.resolve ref = .error (T.blame e)) :
    T.Carried (fun p r => Derives s R (.symbol f x p r))
      fun p r => Derives s' S (.symbol f' x p r) := by
  intro p p' r hp h
  cases h with
  | literal hk ht =>
    obtain ⟨r', hr, ht'⟩ := carried_takes _ _ hp ht
    exact ⟨r', hr, .literal hk ht'⟩
  | pattern hk ht =>
    obtain ⟨r', hr, ht'⟩ := carried_takes _ _ hp ht
    exact ⟨r', hr, .pattern hk ht'⟩
  | reference hk hi h =>
    rcases href _ hk with ⟨j, j', hj, hj', hcarried⟩ | ⟨e, he, -⟩
    · cases hj.symm.trans hi
      obtain ⟨r', hr, h'⟩ := carried_quantified hcarried x.quantifier hp h
      exact ⟨r', hr, .reference hk hj' h'⟩
    · cases he.symm.trans hi
  | unresolved hk hi =>
    rcases href _ hk with ⟨j, j', hj, -⟩ | ⟨e, he, he'⟩
    · cases hj.symm.trans hi
    · cases he.symm.trans hi
      exact ⟨_, .err, .unresolved hk he'⟩

/-- What stands for a symbol is treated in the same way, and is carried. -/
structure CarriedSymbol (T : Transport) (s s' : Setting τ) (R S : Semantics τ) (f f' : Frame τ)
    (x x' : Symbol) : Prop where
  lookahead_eq : x'.lookahead = x.lookahead
  carried : T.Carried (fun p r => Derives s R (.symbol f x p r))
    fun p r => Derives s' S (.symbol f' x' p r)

theorem carried_symbols {xs xs' : List Symbol}
    (hxs : List.Forall₂ (CarriedSymbol T s s' R S f f') xs xs') :
    T.Carried (fun p r => Derives s R (.symbols f xs p r))
      fun p r => Derives s' S (.symbols f' xs' p r) := by
  induction hxs with
  | nil =>
    intro p p' r hp h
    cases h
    exact ⟨_, .ok hp, .done⟩
  | cons hx _ ih =>
    intro p p' r hp h
    have hl := hx.lookahead_eq
    cases h with
    | kept hne h hrest =>
      obtain ⟨_, ⟨hq⟩, h'⟩ := hx.carried hp h
      obtain ⟨r', hr, hrest'⟩ := ih hq hrest
      exact ⟨_, hr.map _, .kept (hl ▸ hne) h' hrest'⟩
    | givenBack heq h hrest =>
      obtain ⟨_, ⟨_⟩, h'⟩ := hx.carried hp h
      obtain ⟨r', hr, hrest'⟩ := ih hp hrest
      exact ⟨_, hr.map _, .givenBack (hl.trans heq) h' hrest'⟩
    | passedOver heq h hrest =>
      obtain ⟨_, ⟨⟩, h'⟩ := hx.carried hp h
      obtain ⟨r', hr, hrest'⟩ := ih hp hrest
      exact ⟨_, hr.map _, .passedOver (hl.trans heq) h' hrest'⟩
    | failed hne h =>
      obtain ⟨_, ⟨⟩, h'⟩ := hx.carried hp h
      exact ⟨_, .fail, .failed (hl ▸ hne) h'⟩
    | broken h =>
      obtain ⟨_, ⟨⟩, h'⟩ := hx.carried hp h
      exact ⟨_, .err, .broken h'⟩

/-! ### Rules -/

/-- What stands for a rule has the same transform, which makes the same of its arguments, and what
stands for its symbols. -/
structure CarriedRule (T : Transport) (s s' : Setting τ) (R S : Semantics τ) (f f' : Frame τ)
    (x x' : Rule τ) : Prop where
  transform_eq : x'.transform = x.transform
  meaning_eq {p p' q q' : Position} (t : τ) (args : List Value) : x.transform = some t →
    T.Place p p' → T.Place q q' →
    s'.meaning t args (f'.context s' x' p' q') = s.meaning t args (f.context s x p q)
  symbols : List.Forall₂ (CarriedSymbol T s s' R S f f') x.symbols x'.symbols

theorem carried_rule {x x' : Rule τ} (hx : CarriedRule T s s' R S f f' x x') :
    T.Carried (fun p r => Derives s R (.rule f x p r))
      fun p r => Derives s' S (.rule f' x' p r) := by
  have hsymbols := carried_symbols hx.symbols
  intro p p' r hp h
  cases h with
  | transformed ht h =>
    obtain ⟨_, ⟨hq⟩, h'⟩ := hsymbols hp h
    have h'' := Derives.transformed (hx.transform_eq.trans ht) h'
    rw [hx.meaning_eq _ _ ht hp hq] at h''
    exact ⟨_, .ok hq, h''⟩
  | plain ht h hs =>
    obtain ⟨_, ⟨hq⟩, h'⟩ := hsymbols hp h
    obtain ⟨q', hq', hs'⟩ := T.spans hp hs
    obtain rfl := T.unique hq hq'
    exact ⟨_, .ok hq, .plain (hx.transform_eq.trans ht) h' hs'⟩
  | ruleFails h =>
    obtain ⟨_, ⟨⟩, h'⟩ := hsymbols hp h
    exact ⟨_, .fail, .ruleFails h'⟩
  | ruleError h =>
    obtain ⟨_, ⟨⟩, h'⟩ := hsymbols hp h
    exact ⟨_, .err, .ruleError h'⟩

/-- **Lists of rules are carried** if what stands for each rule is. -/
theorem carried_rules {xs xs' : List (Rule τ)}
    (hxs : List.Forall₂ (CarriedRule T s s' R S f f') xs xs') :
    T.Carried (fun p r => Derives s R (.rules f xs p r))
      fun p r => Derives s' S (.rules f' xs' p r) := by
  induction hxs with
  | nil =>
    intro p p' r hp h
    cases h
    exact ⟨_, .fail, .noRule⟩
  | cons hx _ ih =>
    intro p p' r hp h
    cases h with
    | chosen h hne =>
      obtain ⟨r', hr, h'⟩ := carried_rule hx hp h
      exact ⟨r', hr, .chosen h' (mt hr.eq_fail hne)⟩
    | next h hrest =>
      obtain ⟨_, ⟨⟩, h'⟩ := carried_rule hx hp h
      obtain ⟨r', hr, hrest'⟩ := ih hp hrest
      exact ⟨r', hr, .next h' hrest'⟩

end Transport

end OrderedChoice
