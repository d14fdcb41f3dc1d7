import OrderedChoice.Proofs.Nullable
import OrderedChoice.Proofs.Translation

/-!
# Repetition as recursion

A symbol with a quantifier can be replaced by a reference to an expression that says the same with
ordered choice and recursion: `e*` by `rep`, where `rep` is `e` and `rep` again or else nothing,
`e+` by `e` and then `rep`, and `e?` by `e` or else nothing.  `g.Unrolls F Solid Fresh g'` says that
`g'` is `g` with any number of symbols replaced, in it and in its imports.

The loop stops after a round that matches nothing, where recursion would not, so that repeated
expressions have to use up text.

* `ListTransforms.matches_zeroOrMore` and its neighbours: what the new expressions come to;
* `Matches.unrolled`: whatever an expression comes to, it comes to when it is unrolled;
* `Session.parse_unrolled`: a parse that ends comes to the same in the unrolled grammar.
-/

namespace OrderedChoice

variable {τ : Type}

/-! ### Expressions for quantifiers -/

/-- Transforms with which rules make lists, and hand on a value. -/
structure ListTransforms (meaning : Meaning τ) where
  cons : τ
  nil : τ
  value : τ
  cons_eq (v : Value) (vs : List Value) (c : Context τ) :
    meaning cons [v, .list vs] c = .list (v :: vs)
  nil_eq (c : Context τ) : meaning nil [] c = .list []
  value_eq (v : Value) (c : Context τ) : meaning value [v] c = v

namespace ListTransforms

section

variable {meaning : Meaning τ} (F : ListTransforms meaning)

/-- What a reference leads to, and then the rest of the list. -/
def headTail (ref : Reference) (rest : String) : Rule τ :=
  ⟨[.ofKind (.reference ref), .reference rest], some F.cons⟩

/-- A list of any length. -/
def zeroOrMore (ref : Reference) (name : String) : Expression τ :=
  ⟨name, [F.headTail ref name, ⟨[], some F.nil⟩]⟩

/-- A list that is not empty, where `rest` is a list of any length. -/
def oneOrMore (ref : Reference) (name rest : String) : Expression τ :=
  ⟨name, [F.headTail ref rest]⟩

/-- What a reference leads to, or the empty text. -/
def optional (ref : Reference) (name : String) : Expression τ :=
  ⟨name, [⟨[.ofKind (.reference ref)], some F.value⟩, ⟨[], none⟩]⟩

/-- The expression of a name says what a quantifier says of a reference. -/
inductive Says (g : Grammar τ) (ref : Reference) : Quantifier → String → Prop
  | zeroOrMore {name : String} : g.expression? name = some (F.zeroOrMore ref name) →
      Says g ref .zeroOrMore name
  | oneOrMore {name rest : String} : g.expression? rest = some (F.zeroOrMore ref rest) →
      g.expression? name = some (F.oneOrMore ref name rest) → Says g ref .oneOrMore name
  | optional {name : String} : g.expression? name = some (F.optional ref name) →
      Says g ref .optional name

end

/-! ### What they come to -/

variable {s : Setting τ} (F : ListTransforms s.meaning)

section

variable {f i j : Frame τ} {ref : Reference} {rest : String} {p q : Position}
  (hi : f.resolve ref = .ok i)
include hi

theorem headTail_fail (h : Matches s i p .fail) :
    Derives s (Matches s) (.rule f (F.headTail ref rest) p .fail) :=
  .ruleFails (.fail_first rfl (.once hi h))

theorem headTail_err {x : GrammarError} (h : Matches s i p (.err x)) :
    Derives s (Matches s) (.rule f (F.headTail ref rest) p (.err x)) :=
  .ruleError (.broken (.once hi h))

theorem headTail_ok (hj : f.resolve ⟨none, rest⟩ = .ok j) {v : Value} {r : Result (List Value)}
    (h : Matches s i p (.ok v q)) (hrest : Matches s j q (r.map .list)) :
    Derives s (Matches s) (.rule f (F.headTail ref rest) p ((r.map (v :: ·)).map .list)) := by
  have hhead : Derives s (Matches s) (.symbol f (.ofKind (.reference ref)) p (.ok v q)) :=
    .once hi h
  have htail : Derives s (Matches s) (.symbol f (.reference rest) q (r.map .list)) :=
    .once hj hrest
  cases r with
  | ok vs q' =>
    have hargs : Derives s (Matches s) (.symbols f (F.headTail ref rest).symbols p
        (.ok [v, .list vs] q')) := .then_ok rfl hhead (.then_ok rfl htail .done)
    have hrule := Derives.transformed (x := F.headTail ref rest) rfl hargs
    rwa [F.cons_eq] at hrule
  | fail => exact .ruleFails (.then_fail rfl hhead (.fail_first rfl htail))
  | err x => exact .ruleError (.then_err rfl hhead (.broken htail))

end

section

variable {R : Semantics τ} {i i' : Frame τ} {text : List Char} {g : Grammar τ} {ref : Reference}
  {name : String}
  (hi : ∀ name rules, (Frame.mk none g ⟨name, rules⟩).resolve ref = .ok i')
  (hcall : ∀ ⦃p r⦄, (Position.start text).Reaches p → R i p r → Matches s i' p r)
include hi hcall

/-- **A loop comes to what recursion comes to**, if every round uses up text. -/
theorem matches_zeroOrMore
    (hsolid : ∀ ⦃p v q⦄, (Position.start text).Reaches p → R i p (.ok v q) → q.offset ≠ p.offset)
    (hname : g.expression? name = some (F.zeroOrMore ref name)) {p : Position}
    {r : Result (List Value)} (hp : (Position.start text).Reaches p)
    (h : Derives s R (.repetition i p r)) :
    r ≠ .fail ∧ Matches s ⟨none, g, F.zeroOrMore ref name⟩ p (r.map .list) := by
  have hrest : (Frame.mk none g (F.zeroOrMore ref name)).resolve ⟨none, name⟩ =
      .ok ⟨none, g, F.zeroOrMore ref name⟩ := Frame.resolve_local hname
  have hhead := hi name (F.zeroOrMore ref name).rules
  -- the induction is on the rounds, each of which starts at a place of the text
  have hJ : ∀ J, Derives s R J → ∀ p r, J = .repetition i p r → (Position.start text).Reaches p →
      r ≠ .fail ∧ Matches s ⟨none, g, F.zeroOrMore ref name⟩ p (r.map .list) := by
    intro J d
    induction d with
    | @repeatEnd _ p h =>
      rintro p r ⟨⟩ hp
      have hnil : Derives s (Matches s) (.rule ⟨none, g, F.zeroOrMore ref name⟩
          ⟨[], some F.nil⟩ p _) := .transformed rfl .done
      rw [F.nil_eq] at hnil
      exact ⟨nofun, .inside nofun (.next (F.headTail_fail hhead (hcall hp h))
        (.chosen hnil nofun))⟩
    | repeatIdle h ho =>
      rintro p r ⟨⟩ hp
      exact absurd ho (hsolid hp h)
    | @repeatOn _ _ q v r h _ _ ih =>
      rintro p r ⟨⟩ hp
      have hround := hcall hp h
      obtain ⟨hne, htail⟩ := ih q _ rfl (hp.trans (hround.isAheadOf v q rfl))
      have hmore := F.headTail_ok hhead hrest hround htail
      have hne' := Result.map_ne_fail (f := (v :: ·)) hne
      exact ⟨hne', .inside nofun (.chosen hmore (Result.map_ne_fail hne'))⟩
    | repeatError h =>
      rintro p r ⟨⟩ hp
      exact ⟨nofun, .inside nofun (.chosen (F.headTail_err hhead (hcall hp h)) nofun)⟩
    | _ =>
      rintro p r hJ
      cases hJ
  exact hJ _ h p r rfl hp

theorem matches_oneOrMore {rest : String}
    (hsolid : ∀ ⦃p v q⦄, (Position.start text).Reaches p → R i p (.ok v q) → q.offset ≠ p.offset)
    (hrest : g.expression? rest = some (F.zeroOrMore ref rest)) {p : Position} {r : Result Value}
    (hp : (Position.start text).Reaches p) (h : Derives s R (.quantified .oneOrMore i p r)) :
    Matches s ⟨none, g, F.oneOrMore ref name rest⟩ p r := by
  have hhead := hi name (F.oneOrMore ref name rest).rules
  cases h with
  | oneOrMore h hsome =>
    cases h with
    | repeatEnd => exact absurd rfl (hsome p)
    | repeatIdle h ho => exact absurd ho (hsolid hp h)
    | @repeatOn _ _ q v r h _ hlater =>
      have hround := hcall hp h
      obtain ⟨hne, htail⟩ := F.matches_zeroOrMore hi hcall hsolid hrest
        (hp.trans (hround.isAheadOf v q rfl)) hlater
      have hresolve : (Frame.mk none g (F.oneOrMore ref name rest)).resolve ⟨none, rest⟩ =
          .ok ⟨none, g, F.zeroOrMore ref rest⟩ := Frame.resolve_local hrest
      have hmore := F.headTail_ok hhead hresolve hround htail
      exact .inside nofun (.chosen hmore (Result.map_ne_fail (Result.map_ne_fail hne)))
    | repeatError h =>
      exact .inside nofun (.chosen (F.headTail_err hhead (hcall hp h)) nofun)
  | @tooFew _ _ q h =>
    generalize hres : Result.ok [] q = res at h
    cases h with
    | repeatEnd h => exact .inside nofun (.next (F.headTail_fail hhead (hcall hp h)) .noRule)
    | repeatIdle => cases hres
    | @repeatOn _ _ _ _ r => cases r <;> cases hres
    | repeatError => cases hres

theorem matches_optional {p : Position} {r : Result Value}
    (hp : (Position.start text).Reaches p) (h : Derives s R (.quantified .optional i p r)) :
    Matches s ⟨none, g, F.optional ref name⟩ p r := by
  have hsymbol : ∀ r, R i p r → Derives s (Matches s) (.symbol ⟨none, g, F.optional ref name⟩
      (.ofKind (.reference ref)) p r) := fun r h => .once (hi name _) (hcall hp h)
  cases h with
  | optional h hne =>
    refine .inside nofun (.chosen ?_ hne)
    cases r with
    | ok v q =>
      have hrule := Derives.transformed (x := ⟨[.ofKind (.reference ref)], some F.value⟩) rfl
        (.then_ok rfl (hsymbol _ h) .done)
      rwa [F.value_eq] at hrule
    | fail => exact absurd rfl hne
    | err x => exact .ruleError (.broken (hsymbol _ h))
  | absent h =>
    refine .inside nofun (.next (.ruleFails (.fail_first rfl (hsymbol _ h))) (.chosen ?_ nofun))
    exact .plain rfl .done ⟨rfl, rfl⟩

/-- What is said of a reference by an expression comes to what a quantifier comes to. -/
theorem Says.exists_matches {n : Quantifier} (hmeans : F.Says g ref n name)
    (hsolid : n = .optional ∨ ∀ ⦃p v q⦄, (Position.start text).Reaches p → R i p (.ok v q) →
      q.offset ≠ p.offset) {p : Position} {r : Result Value}
    (hp : (Position.start text).Reaches p) (h : Derives s R (.quantified n i p r)) :
    ∃ e, g.expression? name = some e ∧ Matches s ⟨none, g, e⟩ p r := by
  cases hmeans with
  | zeroOrMore hname =>
    rcases hsolid with hn | hsolid
    · cases hn
    · cases h with
      | zeroOrMore h =>
        exact ⟨_, hname, (F.matches_zeroOrMore hi hcall hsolid hname hp h).2⟩
  | oneOrMore hrest hname =>
    rcases hsolid with hn | hsolid
    · cases hn
    · exact ⟨_, hname, F.matches_oneOrMore hi hcall hsolid hrest hp h⟩
  | optional hname => exact ⟨_, hname, F.matches_optional hi hcall hp h⟩

end

end ListTransforms

/-! ### Unrolled grammars -/

section

variable {meaning : Meaning τ} (F : ListTransforms meaning)
  (Solid : Grammar τ → Expression τ → Prop) (Fresh : String → Prop)

/-- A symbol of an expression of `g` is kept, or stands without its quantifier for what it refers
to: an expression of `g'` says how often.  What is repeated is solid. -/
inductive Symbol.Unrolls (g g' : Grammar τ) (e : Expression τ) : Symbol → Symbol → Prop
  | kept (x : Symbol) : Unrolls g g' e x x
  | unrolled {x : Symbol} {ref : Reference} {k : Grammar τ} {f : Expression τ} {name : String} :
      x.kind = .reference ref → g.resolve ref e.name = .ok (k, f) →
      (x.quantifier = .optional ∨ Solid k f) → F.Says g' ref x.quantifier name →
      Unrolls g g' e x ((Symbol.reference name).withLookahead x.lookahead)

/-- A rule with any number of symbols unrolled. -/
structure Rule.Unrolls (g g' : Grammar τ) (e : Expression τ) (x x' : Rule τ) : Prop where
  transform_eq : x'.transform = x.transform
  symbols : List.Forall₂ (Symbol.Unrolls F Solid g g' e) x.symbols x'.symbols

/-- An expression with any number of symbols unrolled. -/
structure Expression.Unrolls (g g' : Grammar τ) (e e' : Expression τ) : Prop where
  name_eq : e'.name = e.name
  rules : List.Forall₂ (Rule.Unrolls F Solid g g' e) e.rules e'.rules

namespace Grammar

/-- The name is that of the root, or a reference in the grammar mentions it. -/
def Uses (g : Grammar τ) (name : String) : Prop :=
  g.rootName = some name ∨ ∃ e ∈ g.expressions, ∃ ref, e.Mentions ref ∧ ref.expression = name

/-- A grammar with any number of symbols unrolled, in it and in its imports.  It has new expressions
of fresh names, which are used nowhere in the grammar as it has been. -/
inductive Unrolls : Grammar τ → Grammar τ → Prop
  | intro {g g' : Grammar τ} : g'.name = g.name → g'.rootName = g.rootName →
      (∀ n, g.Uses n → ¬ Fresh n) →
      (∀ n, ¬ Fresh n →
        Option.Rel (Expression.Unrolls F Solid g g') (g.expression? n) (g'.expression? n)) →
      (∀ n, Option.Rel Unrolls (g.import? n) (g'.import? n)) → Unrolls g g'

end Grammar

/-- The contexts are the same but for the rule, and for what has been unrolled in the grammar. -/
structure Context.Unrolls (c c' : Context τ) : Prop where
  grammar : c.grammar.Unrolls F Solid Fresh c'.grammar
  expression : c.expression.Unrolls F Solid c.grammar c'.grammar c'.expression
  input_eq : c'.input = c.input
  start_eq : c'.start = c.start
  stop_eq : c'.stop = c.stop

end

namespace Grammar.Unrolls

variable {meaning : Meaning τ} {F : ListTransforms meaning}
  {Solid : Grammar τ → Expression τ → Prop} {Fresh : String → Prop} {g g' : Grammar τ}

theorem name_eq (h : g.Unrolls F Solid Fresh g') : g'.name = g.name := by
  cases h
  assumption

theorem not_fresh (h : g.Unrolls F Solid Fresh g') {n : String} (hn : g.Uses n) : ¬ Fresh n := by
  cases h with
  | intro _ _ hfresh => exact hfresh n hn

theorem expression? (h : g.Unrolls F Solid Fresh g') {n : String} (hn : ¬ Fresh n) :
    Option.Rel (Expression.Unrolls F Solid g g') (g.expression? n) (g'.expression? n) := by
  cases h with
  | intro _ _ _ hexpression => exact hexpression n hn

theorem target? (h : g.Unrolls F Solid Fresh g') (ref : Reference) :
    Option.Rel (Grammar.Unrolls F Solid Fresh) (g.target? ref) (g'.target? ref) := by
  have hg := h
  cases h with
  | intro hname _ _ _ himport => exact rel_target? hg hname himport ref

/-- A reference that is not to a new expression leads to what it has led to, unrolled, or fails as
it has failed. -/
theorem resolve (h : g.Unrolls F Solid Fresh g') {ref : Reference} (href : ¬ Fresh ref.expression)
    (e : Expression τ) :
    (∃ k k' f f', (Frame.mk none g e).resolve ref = .ok ⟨none, k, f⟩ ∧
      (∀ e', (Frame.mk none g' e').resolve ref = .ok ⟨none, k', f'⟩) ∧
      k.Unrolls F Solid Fresh k' ∧ f.Unrolls F Solid k k' f') ∨
    ∃ x, (Frame.mk none g e).resolve ref = .error x ∧
      ∀ e', e'.name = e.name → (Frame.mk none g' e').resolve ref = .error x := by
  unfold Frame.resolve
  rcases rel_resolve h.name_eq (h.target? ref) (fun _ _ hk => hk.name_eq)
    (fun _ _ hk => hk.expression? href) with ⟨k, k', f, f', hr, hr', hunrolls⟩ | herr
  · refine .inl ⟨k, k', f, f', ?_, fun e' => ?_, hunrolls⟩
    · simp only [hr, Except.map, Frame.inner, Option.map_none]
    · simp only [hr', Except.map, Frame.inner, Option.map_none]
  · obtain ⟨x, hx, hx'⟩ := herr e.name
    refine .inr ⟨x, ?_, fun e' he => ?_⟩
    · simp only [hx, Except.map]
    · simp only [he, hx', Except.map]

/-- The root is unrolled. -/
theorem root? (h : g.Unrolls F Solid Fresh g') :
    Option.Rel (Expression.Unrolls F Solid g g') g.root? g'.root? := by
  have hg := h
  cases h with
  | intro _ hroot =>
    unfold Grammar.root?
    rw [hroot]
    cases hn : g.rootName with
    | none => exact .none
    | some n => exact hg.expression? (hg.not_fresh (.inl hn))

end Grammar.Unrolls

/-! ### What unrolled grammars mean -/

/-- The places of one text. -/
def Transport.within (text : List Char) : Transport where
  Place := Position.SameIn text
  blame := id
  rest_eq h := h.rest_eq
  unique h h' := h.unique h'
  spans h hs := h.spans hs
  offset_eq_iff h h' := h.offset_eq_iff h'

namespace Transport

variable {α : Type} {text : List Char} {p : Position} {r r' : Result α}

theorem carries_within (hp : (Position.start text).Reaches p) (h : r.IsAheadOf p) :
    (within text).Carries r r := by
  cases r with
  | ok a q => exact .ok ⟨rfl, hp.trans (h a q rfl)⟩
  | fail => exact .fail
  | err e => exact .err

theorem Carries.eq_of_within (h : (within text).Carries r r') : r' = r := by
  cases h with
  | ok hq =>
    obtain ⟨rfl, -⟩ := hq
    rfl
  | fail => rfl
  | err => rfl

end Transport

section

variable {s : Setting τ} {F : ListTransforms s.meaning} {Solid : Grammar τ → Expression τ → Prop}
  {Fresh : String → Prop} {text : List Char}

section

variable {R : Semantics τ} {g g' : Grammar τ} {e e' : Expression τ}
  (hcall : ∀ ⦃k k' f f'⦄, (∃ ref, (Frame.mk none g e).resolve ref = .ok ⟨none, k, f⟩) →
    k.Unrolls F Solid Fresh k' → f.Unrolls F Solid k k' f' → ∀ ⦃p r⦄,
      (Position.start text).Reaches p → R ⟨none, k, f⟩ p r → Matches s ⟨none, k', f'⟩ p r)
  (hsolid : ∀ ⦃k f⦄, Solid k f → f ∈ k.expressions → ∀ ⦃p v q⦄,
    (Position.start text).Reaches p → R ⟨none, k, f⟩ p (.ok v q) → q.offset ≠ p.offset)
  (hg : g.Unrolls F Solid Fresh g') (he : e.Unrolls F Solid g g' e')
include hcall hsolid hg he

/-- What stands for a symbol comes to what the symbol has come to. -/
theorem Symbol.Unrolls.carried {x x' : Symbol} (hx : x.Unrolls F Solid g g' e x')
    (hfresh : ∀ ref, x.kind = .reference ref → ¬ Fresh ref.expression) :
    Transport.CarriedSymbol (.within text) s s R (Matches s) ⟨none, g, e⟩ ⟨none, g', e'⟩ x x' := by
  cases hx with
  | kept =>
    refine ⟨rfl, ?_⟩
    refine Transport.carried_symbol fun ref hk => ?_
    rcases hg.resolve (hfresh ref hk) e with ⟨k, k', f, f', hi, hi', hunrolls⟩ | ⟨x, herr, herr'⟩
    · refine .inl ⟨_, _, hi, hi' e', ?_⟩
      rintro p _ r ⟨rfl, hp⟩ h
      have hmatches := hcall ⟨ref, hi⟩ hunrolls.1 hunrolls.2 hp h
      exact ⟨r, Transport.carries_within hp hmatches.isAheadOf, hmatches⟩
    · exact .inr ⟨x, herr, herr' e' he.name_eq⟩
  | @unrolled ref k f name hk hresolve hkind hmeans =>
    refine ⟨rfl, ?_⟩
    rintro p _ r ⟨rfl, hp⟩ h
    have hi : (Frame.mk none g e).resolve ref = .ok ⟨none, k, f⟩ := by
      simp only [Frame.resolve, hresolve]
      rfl
    rcases hg.resolve (hfresh ref hk) e with ⟨l, k', d, f', hl, hi', hunrolls⟩ | ⟨x, herr, -⟩
    · cases hl.symm.trans hi
      have hmem : f ∈ k.expressions := (Grammar.IsPartOf.self.of_resolve hresolve).2
      obtain ⟨_, hname, hmatches⟩ := ListTransforms.Says.exists_matches F (fun _ _ => hi' _)
        (hcall ⟨ref, hi⟩ hunrolls.1 hunrolls.2) hmeans (hkind.imp_right (hsolid · hmem)) hp
        (h.quantified_of_reference hk hi)
      exact ⟨r, Transport.carries_within hp hmatches.isAheadOf,
        .reference rfl (Frame.resolve_local hname) (.one hmatches)⟩
    · cases herr.symm.trans hi

/-- Unrolled rules come to what the rules have come to. -/
theorem Expression.Unrolls.carried {root : Grammar τ}
    (hroot : root.Respects s.meaning (Context.Unrolls F Solid Fresh))
    (hin : (Frame.mk none g e).IsIn root) :
    (Transport.within text).Carried
      (fun p r => Derives s R (.rules ⟨none, g, e⟩ e.rules p r))
      fun p r => Derives s (Matches s) (.rules ⟨none, g', e'⟩ e'.rules p r) := by
  have hrules := (List.forall₂_and_left _ _).2 ⟨fun x (hx : x ∈ e.rules) => hx, he.rules⟩
  refine Transport.carried_rules (hrules.imp ?_)
  rintro rule rule' ⟨hrule, hunrolls⟩
  have hsymbols := (List.forall₂_and_left _ _).2
    ⟨fun x (hx : x ∈ rule.symbols) => hx, hunrolls.symbols⟩
  refine ⟨hunrolls.transform_eq, ?_, hsymbols.imp ?_⟩
  · rintro p _ q _ t args ht ⟨rfl, -⟩ ⟨rfl, -⟩
    have hcontext : Context.Unrolls F Solid Fresh ⟨g, e, rule, s.input, p, q⟩
        ⟨g', e', rule', s.input, p, q⟩ := ⟨hg, he, rfl, rfl, rfl⟩
    exact (hroot t args _ _ ⟨hin.1, hin.2, hrule⟩ ht hcontext).symm
  · rintro x x' ⟨hx, hxx'⟩
    refine hxx'.carried hcall hsolid hg he fun ref hk => hg.not_fresh (.inr ?_)
    exact ⟨e, hin.2, ref, ⟨rule, hrule, x, hx, hk⟩, rfl⟩

end

/-- **What an expression comes to, it comes to unrolled.** -/
theorem Matches.unrolled {root : Grammar τ}
    (hroot : root.Respects s.meaning (Context.Unrolls F Solid Fresh))
    (hsolid : ∀ ⦃k f⦄, Solid k f → f ∈ k.expressions → ∀ ⦃p v q⦄,
      (Position.start text).Reaches p → Matches s ⟨none, k, f⟩ p (.ok v q) → q.offset ≠ p.offset)
    {g g' : Grammar τ} {e e' : Expression τ} {p : Position} {r : Result Value}
    (hin : (Frame.mk none g e).IsIn root) (hg : g.Unrolls F Solid Fresh g')
    (he : e.Unrolls F Solid g g' e') (hp : (Position.start text).Reaches p)
    (h : Matches s ⟨none, g, e⟩ p r) : Matches s ⟨none, g', e'⟩ p r := by
  refine Matches.induct (P := fun f p r => f.room = none → f.IsIn root → ∀ g' e',
    f.grammar.Unrolls F Solid Fresh g' → f.expression.Unrolls F Solid f.grammar g' e' →
    (Position.start text).Reaches p → Matches s ⟨none, g', e'⟩ p r) ?_ ?_ h rfl hin g' e' hg he hp
  · intro f p limit hzero _ hroom
    cases hroom.symm.trans hzero
  · rintro ⟨_, g, e⟩ p r - hderives rfl hin g' e' hg he hp
    obtain ⟨r', hr, hderives'⟩ := he.carried
      (fun k k' f f' ⟨ref, href⟩ hk hf p r hp hr => hr.2 rfl (hin.resolve href) k' f' hk hf hp)
      (fun k f hkf hf p v q hp hr => hsolid hkf hf hp hr.1) hg hroot hin ⟨rfl, hp⟩ hderives
    obtain rfl := hr.eq_of_within
    exact .inside nofun hderives'

end

/-! ### Parses -/

namespace Session

/-- Every match of the expression uses up some text. -/
def Consumes (s : Session τ) (g : Grammar τ) (e : Expression τ) : Prop :=
  ∀ (text : List Char) (bound : Nat) (m m' : Machine τ) (v : Value),
    (Position.start text).Reaches m.position →
    matchExpression (s.setting text) bound g e m = ⟨.matched v, m'⟩ → m.cursor < m'.cursor

variable {s : Session τ}

theorem Consumes.offset_ne {g : Grammar τ} {e : Expression τ} (h : s.Consumes g e)
    (hdepth : s.config.maxDepth = none) (he : e ∈ g.expressions) {text : List Char}
    {p q : Position} {v : Value} (hp : (Position.start text).Reaches p)
    (hv : Matches (s.setting text) ⟨none, g, e⟩ p (.ok v q)) : q.offset ≠ p.offset := by
  have hlimit : (s.setting text).limit = none := by simp only [setting, hdepth, Option.map_none]
  have hwithin := hv.within_of_isIn hlimit rfl ⟨.self, he⟩ hp
  have hrun := (result?_matchExpression (s.setting text) _ g e ⟨p, 0, .none, []⟩ (.ok v q)).2 (by
    simpa only [Setting.frame, hlimit, Option.map_none] using hwithin)
  obtain ⟨m, hm, rfl, -⟩ := (exact_matchExpression _ _ g e _).eq_of_ok hrun
  exact (h text _ ⟨p, 0, .none, []⟩ m v hp hm).ne'

/-- What has no rule of symbols that may match nothing consumes text. -/
theorem consumes_of_not_matchesEmpty {g : Grammar τ} {e : Expression τ}
    (h : ¬ (Node.mk g e).MatchesEmpty) : s.Consumes g e := by
  intro text bound m m' v hp hrun
  have hresult : (matchExpression (s.setting text) bound g e m).result? =
      some (.ok v m'.position) := by rw [hrun]; rfl
  have hmatches := ((result?_matchExpression _ _ _ _ _ _).1 hresult).matches
  have hle := (hmatches.isAheadOf v _ rfl).offset_le
  refine lt_of_le_of_ne hle fun heq => ?_
  exact h (hmatches.matchesEmpty ⟨v, _, rfl, heq.symm⟩)

section

variable {F : ListTransforms s.meaning} {Fresh : String → Prop} {g' : Grammar τ}
  (hdepth : s.config.maxDepth = none) (hg : s.grammar.Unrolls F s.Consumes Fresh g')
include hdepth hg

/-- What the root expression comes to, it comes to unrolled. -/
theorem matches_root_unrolled
    (hs : s.grammar.Respects s.meaning (Context.Unrolls F s.Consumes Fresh)) {text : List Char}
    {e e' : Expression τ} (he : s.grammar.root? = some e)
    (hunrolls : e.Unrolls F s.Consumes s.grammar g' e') {r : Result Value}
    (h : Matches (s.setting text) (s.rootFrame e) (.start text) r) :
    Matches ((s.withGrammar g').setting text) ((s.withGrammar g').rootFrame e') (.start text)
      r := by
  have hframe : ∀ (t : Session τ) (f : Expression τ), t.config = s.config →
      t.rootFrame f = ⟨none, t.grammar, f⟩ := fun t f ht => by
    simp only [rootFrame, ht, hdepth, Option.map_none]
  rw [hframe s e rfl] at h
  rw [hframe (s.withGrammar g') e' rfl]
  exact h.unrolled hs (fun k f hk hf p v q hp => hk.offset_ne hdepth hf hp)
    ⟨.self, Grammar.mem_of_root? he⟩ hg hunrolls (.refl _)

end

/-- **Recursion agrees with repetition.**  A parse that ends, without a limit on nesting, comes to
the same in the unrolled grammar: the root expression has the same value and leaves off at the same
place, or is a mismatch too, or fails with the same error.  Here what is unrolled under `*` or `+`
consumes text whenever it matches, and transforms do not look at rules or symbols. -/
theorem parse_unrolled (s : Session τ) (F : ListTransforms s.meaning) (Fresh : String → Prop)
    (g' : Grammar τ) (hdepth : s.config.maxDepth = none)
    (hg : s.grammar.Unrolls F s.Consumes Fresh g')
    (hs : s.grammar.Respects s.meaning (Context.Unrolls F s.Consumes Fresh)) (input : String)
    (hends : (s.parse input).1.outcome ≠ .endless) :
    ((s.withGrammar g').parse input).1.outcome = (s.parse input).1.outcome ∧
    ∀ e, s.grammar.root? = some e → ∃ e', g'.root? = some e' ∧
      ((s.withGrammar g').rootAttempt input.toList e').result? =
        (s.rootAttempt input.toList e).result? := by
  have hroot := hg.root?
  obtain ⟨x, hanswer⟩ : ∃ x, (s.parse input).1.outcome.answer? = some x := by
    simpa [Outcome.eq_endless_iff] using hends
  have hyields := (s.answer?_parse_iff input x).1 hanswer
  have hsame : (s.withGrammar g').Yields input.toList x →
      ((s.withGrammar g').parse input).1.outcome = (s.parse input).1.outcome :=
    fun h => Outcome.eq_of_answer? ((answer?_parse_iff _ input x).2 h) hanswer
  generalize he' : g'.root? = e'? at hroot
  cases he : s.grammar.root? with
  | none =>
    rw [he] at hroot
    cases hroot
    obtain rfl := hyields.unique (.noRoot he)
    refine ⟨hsame ?_, nofun⟩
    rw [← hg.name_eq]
    exact .noRoot he'
  | some e =>
    rw [he] at hroot
    cases hroot with
    | some hunrolls =>
      obtain ⟨r, h, rfl⟩ := (yields_iff he).1 hyields
      have h' := matches_root_unrolled hdepth hg hs he hunrolls h
      refine ⟨hsame ((yields_iff (s := s.withGrammar g') he').2 ⟨r, h', rfl⟩), ?_⟩
      rintro _ ⟨⟩
      refine ⟨_, rfl, ?_⟩
      have hresult := (result?_root he (m := s.startMachine input.toList) rfl rfl).2 h
      have hresult' := (result?_root (s := s.withGrammar g') he'
        (m := (s.withGrammar g').startMachine input.toList) rfl rfl).2 h'
      exact hresult'.trans hresult.symm

end Session

/-! ### Accents by recursion -/

/-- Ready-made transforms that make lists. -/
def Transform.lists : ListTransforms Transform.apply where
  cons := .headTail
  nil := .const (.list [])
  value := .first
  cons_eq _ _ _ := rfl
  nil_eq _ := rfl
  value_eq _ _ := rfl

/-- Accents as before, where a list of them is another expression. -/
def unrolledAccents : Expression Transform :=
  ⟨"accents", [⟨[⟨.literal "é", .one, .assert⟩, .reference "some", ⟨.literal "!", .one, .lenient⟩],
    some .list⟩]⟩

/-- A list of accents takes one and then the rest. -/
def unrolledAccentGrammar : Grammar Transform :=
  .ofMembers "accents" (some "accents")
    [unrolledAccents, accent, Transform.lists.oneOrMore ⟨none, "accent"⟩ "some" "more",
      Transform.lists.zeroOrMore ⟨none, "accent"⟩ "more"] []

theorem consumes_accent : (Session.new accentGrammar Transform.apply .default).Consumes
    accentGrammar accent := by
  refine Session.consumes_of_not_matchesEmpty ?_
  rintro ⟨rule, hrule, hnullable⟩
  obtain rfl := List.mem_singleton.1 hrule
  exact Node.not_nullable_literal (by decide) (hnullable _ List.mem_cons_self)

theorem unrolls_accentGrammar : accentGrammar.Unrolls Transform.lists
    (Session.new accentGrammar Transform.apply .default).Consumes
    (fun n => n = "some" ∨ n = "more") unrolledAccentGrammar := by
  refine .intro rfl rfl ?_ ?_ fun n => .none
  · rintro n (hroot | ⟨e, he, ref, href, rfl⟩)
    · cases hroot
      decide
    · obtain rfl := mentions_accentGrammar he href
      decide
  · intro n hn
    obtain ⟨hsome, hmore⟩ := not_or.1 hn
    by_cases haccents : n = "accents"
    · subst haccents
      have hfound : accentGrammar.expression? "accents" = some accents := rfl
      have hfound' : unrolledAccentGrammar.expression? "accents" = some unrolledAccents := rfl
      rw [hfound, hfound']
      refine .some ⟨rfl, .cons ⟨rfl, .cons (.kept _) (.cons ?_ (.cons (.kept _) .nil))⟩ .nil⟩
      exact .unrolled rfl rfl (.inr consumes_accent) (.oneOrMore rfl rfl)
    · by_cases haccent : n = "accent"
      · subst haccent
        exact .some ⟨rfl, .cons ⟨rfl, .cons (.kept _) (.cons (.kept _) .nil)⟩ .nil⟩
      · have hnone : accentGrammar.expression? n = none := by
          simp [Grammar.expression?_ofMembers, accentGrammar, accents, accent, Ne.symm haccents,
            Ne.symm haccent]
        have hnone' : unrolledAccentGrammar.expression? n = none := by
          simp [Grammar.expression?_ofMembers, unrolledAccentGrammar, unrolledAccents, accent,
            ListTransforms.oneOrMore, ListTransforms.zeroOrMore, Ne.symm haccents, Ne.symm haccent,
            Ne.symm hsome, Ne.symm hmore]
        rw [hnone, hnone']
        exact .none

/-- Two rounds of the loop are two levels of recursion. -/
theorem Session.parse_unrolled_accents :
    let s := Session.new accentGrammar Transform.apply .default
    accentGrammar.Unrolls Transform.lists s.Consumes (fun n => n = "some" ∨ n = "more")
      unrolledAccentGrammar ∧
    ((s.withGrammar unrolledAccentGrammar).parse "ébé!").1.outcome =
      .matched (.list [.null, .list [.string "éb", .string "é"], .string "!"]) := by
  intro s
  have hrespects : accentGrammar.Respects Transform.apply _ :=
    respects_accentGrammar.mono fun c c' (h : c.Unrolls Transform.lists s.Consumes
      (fun n => n = "some" ∨ n = "more") c') => by
        simp only [Context.matchedText, h.start_eq, h.stop_eq]
  have houtcome : (s.parse "ébé!").1.outcome =
      .matched (.list [.null, .list [.string "éb", .string "é"], .string "!"]) := rfl
  have hunrolled := parse_unrolled s Transform.lists _ unrolledAccentGrammar rfl
    unrolls_accentGrammar hrespects "ébé!" (by simp [houtcome])
  exact ⟨unrolls_accentGrammar, hunrolled.1.trans houtcome⟩

end OrderedChoice
