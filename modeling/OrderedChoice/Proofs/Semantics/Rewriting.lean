import OrderedChoice.Proofs.Hygiene
import OrderedChoice.Proofs.Semantics.Adequacy
import OrderedChoice.Proofs.Semantics.Composition
import OrderedChoice.Proofs.Semantics.Transport

/-!
# Expressions with other rules

A way to change rules is a relation between lists of rules: `g.Rewrites X g'` says that `g'` is `g`
where the rules of any number of expressions, of `g` and of its imports, have been changed in the
way of `X`.

Such a way is harmless (`Setting.Preserves`) if the new rules of an expression come to what the old
ones have come to, with all other expressions as they are, and if no transform sees the change.
That is a condition on one list of rules at a time, and it is enough for whole grammars, recursive
ones included:

* `Setting.Preserves.within_iff`: what an expression comes to within a bound on nesting, it comes to
  after all changes, and conversely;
* `Session.outcome_rewritten`: every parse comes to the same.
-/

namespace OrderedChoice

variable {τ : Type}

/-! ### Changes of rules -/

section

variable (X : List (Rule τ) → List (Rule τ) → Prop)

/-- An expression with rules changed. -/
structure Expression.Rewrites (e e' : Expression τ) : Prop where
  name_eq : e'.name = e.name
  rules : X e.rules e'.rules

/-- A grammar with the rules of its expressions changed, and those of its imports. -/
inductive Grammar.Rewrites : Grammar τ → Grammar τ → Prop
  | intro {g g' : Grammar τ} : g'.name = g.name → g'.rootName = g.rootName →
      (∀ n, Option.Rel (Expression.Rewrites X) (g.expression? n) (g'.expression? n)) →
      (∀ n, Option.Rel Rewrites (g.import? n) (g'.import? n)) → Rewrites g g'

/-- The contexts are the same but for what has been changed in the grammar: the rule that has
matched is there in both. -/
structure Context.Rewrites (c c' : Context τ) : Prop where
  grammar : c.grammar.Rewrites X c'.grammar
  expression : c.expression.Rewrites X c'.expression
  rule_eq : c'.rule = c.rule
  input_eq : c'.input = c.input
  start_eq : c'.start = c.start
  stop_eq : c'.stop = c.stop

end

namespace Grammar.Rewrites

variable {X : List (Rule τ) → List (Rule τ) → Prop} {g g' h : Grammar τ} {e e' : Expression τ}

theorem name_eq (h : g.Rewrites X g') : g'.name = g.name := by
  cases h
  assumption

theorem expression? (h : g.Rewrites X g') (n : String) :
    Option.Rel (Expression.Rewrites X) (g.expression? n) (g'.expression? n) := by
  cases h with
  | intro _ _ hexpression => exact hexpression n

/-- The root is changed, or there is none in either. -/
theorem root? (h : g.Rewrites X g') : Option.Rel (Expression.Rewrites X) g.root? g'.root? := by
  have hg := h
  cases h with
  | intro _ hroot =>
    unfold Grammar.root?
    rw [hroot]
    cases g.rootName with
    | none => exact .none
    | some n => exact hg.expression? n

theorem target? (h : g.Rewrites X g') (ref : Reference) :
    Option.Rel (Grammar.Rewrites X) (g.target? ref) (g'.target? ref) := by
  have hg := h
  cases h with
  | intro hname _ _ himport => exact rel_target? hg hname himport ref

/-- A grammar may be left as it is, where rules may. -/
theorem refl (hX : ∀ rules, X rules rules) (g : Grammar τ) : g.Rewrites X g := by
  refine .intro rfl rfl (fun n => ?_) fun n => ?_
  · cases g.expression? n with
    | none => exact .none
    | some e => exact .some ⟨rfl, hX e.rules⟩
  · cases hi : g.import? n with
    | none => exact .none
    | some i =>
      have hlt : sizeOf i < sizeOf g := sizeOf_lt_of_import (mem_of_import? hi)
      exact .some (refl hX i)
termination_by sizeOf g

/-- One expression in one part of a grammar may be changed. -/
theorem of_editAt (hX : ∀ rules, X rules rules) {path : List String} {key : String}
    (hnode : g.node? path = some h) (he : h.expression? key = some e)
    (hchange : e.Rewrites X e') : g.Rewrites X (g.editAt (.putExpression key e') path) := by
  induction path generalizing g with
  | nil =>
    obtain rfl : g = h := Option.some.inj hnode
    refine .intro rfl rfl (fun n => ?_) fun n => ?_
    · have hput : (g.editAt (.putExpression key e') []).expression? n =
          if key = n then some e' else g.expression? n := lookup_setEntry
      rw [hput]
      split
      · rename_i hn
        rw [← hn, he]
        exact .some hchange
      · cases g.expression? n with
        | none => exact .none
        | some f => exact .some ⟨rfl, hX f.rules⟩
    · change Option.Rel _ (g.import? n) (g.import? n)
      cases g.import? n with
      | none => exact .none
      | some i => exact .some (refl hX i)
  | cons name path ih =>
    obtain ⟨i, hi, hnode'⟩ := Option.bind_eq_some_iff.1 hnode
    simp only [editAt, hi]
    refine .intro rfl rfl (fun n => ?_) fun n => ?_
    · change Option.Rel _ (g.expression? n) (g.expression? n)
      cases g.expression? n with
      | none => exact .none
      | some f => exact .some ⟨rfl, hX f.rules⟩
    · rw [import?_useAs]
      split
      · rename_i hn
        rw [← hn, hi]
        exact .some (ih hnode')
      · cases g.import? n with
        | none => exact .none
        | some j => exact .some (refl hX j)

end Grammar.Rewrites

/-! ### Frames in which references lead to the same -/

/-- A reference leads to what comes to the same from both frames, or fails with the same error. -/
def Frame.AgreesWith (R : Semantics τ) (f f' : Frame τ) : Prop :=
  ∀ ref, (∃ i i', f.resolve ref = .ok i ∧ f'.resolve ref = .ok i' ∧ ∀ p r, R i p r ↔ R i' p r) ∨
    ∃ x, f.resolve ref = .error x ∧ f'.resolve ref = .error x

/-- Places that stay. -/
def Transport.inPlace : Transport where
  Place p p' := p' = p
  blame := id
  rest_eq h := congrArg Position.rest h.symm
  unique h h' := h.trans h'.symm
  spans h hs := ⟨_, rfl, h ▸ hs⟩
  offset_eq_iff := by
    rintro p _ q _ rfl rfl
    exact Iff.rfl

theorem Transport.Carries.eq_of_inPlace {α : Type} {r r' : Result α}
    (h : Transport.inPlace.Carries r r') : r' = r := by
  cases h with
  | ok hq => exact congrArg _ hq
  | fail => rfl
  | err => rfl

theorem Transport.carries_inPlace {α : Type} (r : Result α) : inPlace.Carries r r := by
  cases r with
  | ok a q => exact .ok rfl
  | fail => exact .fail
  | err x => exact .err

namespace Frame.AgreesWith

variable {R : Semantics τ} {f f' : Frame τ}

theorem symm (h : f.AgreesWith R f') : f'.AgreesWith R f := fun ref =>
  (h ref).imp (fun ⟨i, i', hi, hi', hR⟩ => ⟨i', i, hi', hi, fun p r => (hR p r).symm⟩)
    fun ⟨x, hx, hx'⟩ => ⟨x, hx', hx⟩

/-- Rules come to the same in frames that agree. -/
theorem rules (h : f.AgreesWith R f') {s : Setting τ} {rules : List (Rule τ)}
    (hmeaning : ∀ rule ∈ rules, ∀ t args p q, rule.transform = some t →
      s.meaning t args (f'.context s rule p q) = s.meaning t args (f.context s rule p q))
    {p : Position} {r : Result Value} (hd : Derives s R (.rules f rules p r)) :
    Derives s R (.rules f' rules p r) := by
  have hrules : List.Forall₂ (Transport.CarriedRule .inPlace s s R R f f') rules rules := by
    refine List.forall₂_same.2 fun rule hrule => ⟨rfl, ?_, List.forall₂_same.2 fun x _ => ⟨rfl, ?_⟩⟩
    · rintro _ p _ q t args ht rfl rfl
      exact hmeaning rule hrule t args p q ht
    · refine Transport.carried_symbol fun ref _ => (h ref).imp_left ?_
      rintro ⟨i, i', hi, hi', hR⟩
      refine ⟨i, i', hi, hi', ?_⟩
      rintro _ p r rfl hr
      exact ⟨r, Transport.carries_inPlace r, (hR p r).1 hr⟩
  obtain ⟨r', hr, hd'⟩ := Transport.carried_rules hrules rfl hd
  rwa [hr.eq_of_inPlace] at hd'

end Frame.AgreesWith

/-! ### Harmless changes -/

/-- A way to change rules makes no difference inside the parts of a grammar: neither to what the
rules of an expression come to when all other expressions stay, nor to transforms. -/
structure Setting.Preserves (s : Setting τ) (X : List (Rule τ) → List (Rule τ) → Prop)
    (root : Grammar τ) : Prop where
  rules_iff {n d : Nat} {g : Grammar τ} {e : Expression τ} {rules : List (Rule τ)} {p : Position}
    {r : Result Value} : (s.frame d g e).IsIn root → X e.rules rules →
    (Derives s (Within s n) (.rules (s.frame d g e) e.rules p r) ↔
      Derives s (Within s n) (.rules (s.frame d g e) rules p r))
  meaning_eq {g g' : Grammar τ} {e e' : Expression τ} {rule : Rule τ} {t : τ} {args : List Value}
    {p q : Position} : g.IsPartOf root → e ∈ g.expressions → g.Rewrites X g' → e.Rewrites X e' →
    rule ∈ e'.rules → rule.transform = some t →
    s.meaning t args ⟨g', e', rule, s.input, p, q⟩ = s.meaning t args ⟨g, e, rule, s.input, p, q⟩

namespace Setting.Preserves

variable {s : Setting τ} {X : List (Rule τ) → List (Rule τ) → Prop} {root g g' : Grammar τ}
  {e e' : Expression τ} {p : Position} {r : Result Value}

/-- **Harmless changes make no difference to expressions**, within any bound on nesting. -/
theorem within_iff (hs : s.Preserves X root) {n d : Nat} (hin : (s.frame d g e).IsIn root)
    (hg : g.Rewrites X g') (he : e.Rewrites X e') :
    Within s n (s.frame d g e) p r ↔ Within s n (s.frame d g' e') p r := by
  induction n generalizing d g g' e e' p r with
  | zero => exact Iff.rfl
  | succ n ih =>
    -- what references lead to is changed as well, and nests one level less
    have hagree : (s.frame d g e).AgreesWith (Within s n) (s.frame d g' e') := by
      intro ref
      rcases Grammar.rel_resolve hg.name_eq (hg.target? ref) (fun _ _ hk => hk.name_eq)
        (fun _ _ hk => hk.expression? ref.expression) with ⟨k, k', f, f', hf, hf', hk, hchange⟩ | hx
      · have hi : (s.frame d g e).resolve ref = .ok (s.frame (d + 1) k f) := by
          rw [← s.frame_inner d g k e f]
          exact congrArg (Except.map _) (hf e.name)
        have hi' : (s.frame d g' e').resolve ref = .ok (s.frame (d + 1) k' f') := by
          rw [← s.frame_inner d g' k' e' f']
          exact congrArg (Except.map _) (hf' e'.name)
        exact .inl ⟨_, _, hi, hi', fun p r => ih (hin.resolve hi) hk hchange⟩
      · obtain ⟨x, hx, hx'⟩ := hx e.name
        rw [← he.name_eq] at hx'
        exact .inr ⟨x, congrArg (Except.map _) hx, congrArg (Except.map _) hx'⟩
    have hmeaning : ∀ rule ∈ e'.rules, ∀ t args p q, rule.transform = some t →
        s.meaning t args ((s.frame d g' e').context s rule p q) =
          s.meaning t args ((s.frame d g e).context s rule p q) :=
      fun rule hrule t args p q ht => hs.meaning_eq hin.1 hin.2 hg he hrule ht
    -- first the rules are changed in the old frame, and then the frame is
    have hrules : Derives s (Within s n) (.rules (s.frame d g e) e.rules p r) ↔
        Derives s (Within s n) (.rules (s.frame d g' e') e'.rules p r) :=
      (hs.rules_iff hin he.rules).trans ⟨hagree.rules hmeaning, hagree.symm.rules
        fun rule hrule t args p q ht => (hmeaning rule hrule t args p q ht).symm⟩
    exact ⟨Opened.imp rfl he.name_eq hrules.1, Opened.imp rfl he.name_eq.symm hrules.2⟩

end Setting.Preserves

/-! ### Parses -/

namespace Session

variable {s : Session τ} {X : List (Rule τ) → List (Rule τ) → Prop} {g' : Grammar τ}
  (hg : s.grammar.Rewrites X g')
include hg

/-- What the root expression comes to, it comes to after harmless changes. -/
theorem matches_root_iff {text : List Char} (hs : (s.setting text).Preserves X s.grammar)
    {e e' : Expression τ} (hroot : s.grammar.root? = some e) (hroot' : g'.root? = some e')
    (he : e.Rewrites X e') (r : Result Value) :
    Matches (s.setting text) (s.rootFrame e) (.start text) r ↔
      Matches (s.setting text) ((s.withGrammar g').rootFrame e') (.start text) r := by
  have hin : ((s.setting text).frame 0 s.grammar e).IsIn s.grammar :=
    ⟨.self, Grammar.mem_of_root? hroot⟩
  have hwithin : ∀ n, Within (s.setting text) n (s.rootFrame e) (.start text) r ↔
      Within (s.setting text) n ((s.withGrammar g').rootFrame e') (.start text) r := by
    intro n
    rw [← s.frame_root text e, ← (s.withGrammar g').frame_root text e']
    exact hs.within_iff hin hg he
  constructor
  · exact fun h => ((hwithin _).1 (within_nestingBound hroot h)).matches
  · intro h
    have hbound := within_nestingBound (s := s.withGrammar g') hroot' h
    exact ((hwithin _).2 hbound).matches

/-- **Harmless changes make no difference to parses.** -/
theorem outcome_rewritten (hs : ∀ text, (s.setting text).Preserves X s.grammar) (input : String) :
    ((s.withGrammar g').parse input).1.outcome = (s.parse input).1.outcome := by
  refine Outcome.eq_of_answers fun x => ?_
  rw [answer?_parse_iff, answer?_parse_iff]
  have hroot := hg.root?
  generalize he' : g'.root? = e'? at hroot
  cases he : s.grammar.root? with
  | none =>
    rw [he] at hroot
    cases hroot
    have hnone : (s.withGrammar g').Yields input.toList (.error (.missingRoot g'.name)) :=
      .noRoot he'
    rw [hg.name_eq] at hnone
    constructor
    · exact fun h => h.unique hnone ▸ .noRoot he
    · exact fun h => h.unique (.noRoot he) ▸ hnone
  | some e =>
    rw [he] at hroot
    cases hroot with
    | some hchange =>
      rw [yields_iff he, yields_iff (s := s.withGrammar g') he']
      exact exists_congr fun r =>
        and_congr_left fun _ => (matches_root_iff hg (hs _) he he' hchange r).symm

end Session

end OrderedChoice
