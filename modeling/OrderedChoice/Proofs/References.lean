import Mathlib.Data.Set.Card
import Mathlib.Logic.Relation
import OrderedChoice.Proofs.Semantics.Basic

/-!
# The graph of references

A `Node` is an expression with the grammar that is active in it, and there is an edge from a node
to each that a reference in one of its rules leads to (`Node.RefersTo`).  A reference looks for its
expression in the grammar that it targets (`Grammar.Targets`), which is then the active one.

* `Node.leadsTo_iff` and `Node.misses_of_resolve`: what the look-up of a reference finds, and
  what is missing where it finds nothing;
* `Node.resolves_of_isClosed`: references whose targets a check has found lead somewhere;
* `Grammar.reachable` is the set of nodes that references lead to from the root.  It is finite, and
  there are no more of them than expressions in the grammar and its imports
  (`Grammar.ncard_reachable_le`).
-/

namespace OrderedChoice

open Relation

variable {τ : Type}

/-! ### Where references lead -/

/-- The grammar in which a reference is to look for its expression: the active one where it names
none, else an import with the name, else the active one again if the name is its own. -/
inductive Grammar.Targets (active : Grammar τ) (ref : Reference) : Grammar τ → Prop
  | unqualified : ref.grammar = none → Targets active ref active
  | imported {name : String} {i : Grammar τ} : ref.grammar = some name →
      active.import? name = some i → Targets active ref i
  | ownName : ref.grammar = some active.name → active.import? active.name = none →
      Targets active ref active

theorem Grammar.target?_eq_some_iff {active g : Grammar τ} {ref : Reference} :
    active.target? ref = some g ↔ active.Targets ref g := by
  constructor
  · intro h
    unfold target? at h
    split at h
    · rename_i hq
      cases h
      exact .unqualified hq
    · rename_i name hq
      split at h
      · rename_i i hi
        cases h
        exact .imported hq hi
      · rename_i hi
        by_cases hname : name = active.name
        · rw [if_pos hname] at h
          cases h
          subst hname
          exact .ownName hq hi
        · rw [if_neg hname] at h
          cases h
  · intro h
    cases h with
    | unqualified hq => simp [target?, hq]
    | imported hq hi => simp [target?, hq, hi]
    | ownName hq hi => simp [target?, hq, hi]

/-- Whether all references in the expressions of a grammar lead somewhere; those in its imports are
not looked at. -/
def Grammar.isClosed (g : Grammar τ) : Bool :=
  g.expressions.all fun e => e.rules.all fun rule => rule.symbols.all fun x =>
    x.asReference?.all fun ref =>
      ((g.target? ref).bind fun target => target.expression? ref.expression).isSome

/-- An expression, with the grammar in which its references are looked up. -/
structure Node (τ : Type) where
  grammar : Grammar τ
  expression : Expression τ

namespace Node

variable {n n' : Node τ} {x : Symbol} {ref : Reference}

/-- A rule of the expression has the symbol. -/
def HasSymbol (n : Node τ) (x : Symbol) : Prop := ∃ rule ∈ n.expression.rules, x ∈ rule.symbols

/-- The reference, looked up in `n`, finds `n'`. -/
def LeadsTo (n : Node τ) (ref : Reference) (n' : Node τ) : Prop :=
  n.grammar.resolve ref n.expression.name = .ok (n'.grammar, n'.expression)

/-- A reference in a rule of `n` leads to `n'`. -/
def RefersTo (n n' : Node τ) : Prop :=
  ∃ x ref, n.HasSymbol x ∧ x.kind = .reference ref ∧ n.LeadsTo ref n'

theorem leadsTo_iff :
    n.LeadsTo ref n' ↔ n.grammar.Targets ref n'.grammar ∧
      n'.grammar.expression? ref.expression = some n'.expression := by
  rw [← Grammar.target?_eq_some_iff]
  unfold LeadsTo Grammar.resolve
  constructor
  · intro h
    split at h
    · cases h
    · rename_i g hg
      split at h
      · rename_i e he
        cases h
        exact ⟨hg, he⟩
      · cases h
  · rintro ⟨hg, he⟩
    simp only [hg, he]

/-! ### References that lead nowhere -/

/-- A rule refers to an expression, in a grammar of some name that has no such expression. -/
def MissesExpression (n : Node τ) (expression grammar : String) : Prop :=
  ∃ x ref target, n.HasSymbol x ∧ x.kind = .reference ref ∧ ref.expression = expression ∧
    n.grammar.Targets ref target ∧ target.name = grammar ∧
    ∀ entry ∈ target.expressionTable, entry.1 ≠ expression

/-- A rule refers to a grammar that is neither imported nor the active one. -/
def MissesGrammar (n : Node τ) (grammar : String) : Prop :=
  ∃ x ref, n.HasSymbol x ∧ x.kind = .reference ref ∧ ref.grammar = some grammar ∧
    (∀ entry ∈ n.grammar.importTable, entry.1 ≠ grammar) ∧ n.grammar.name ≠ grammar

/-- All references in the rules lead somewhere. -/
def Resolves (n : Node τ) : Prop :=
  ∀ x ref, n.HasSymbol x → x.kind = .reference ref → ∃ n', n.LeadsTo ref n'

/-- A look-up that ends in an error has missed what the error says. -/
theorem misses_of_resolve {err : GrammarError} (hx : n.HasSymbol x) (hk : x.kind = .reference ref)
    (h : n.grammar.resolve ref n.expression.name = .error err) :
    (∃ grammar, err = .unknownExpression ref.expression grammar n.expression.name ∧
      n.MissesExpression ref.expression grammar) ∨
    ∃ grammar, err = .unknownGrammar grammar n.grammar.name n.expression.name ∧
      n.MissesGrammar grammar := by
  unfold Grammar.resolve at h
  cases ht : n.grammar.target? ref with
  | none =>
    rw [ht] at h
    cases h
    unfold Grammar.target? at ht
    cases hq : ref.grammar with
    | none => simp [hq] at ht
    | some name =>
      simp only [hq] at ht
      cases hi : n.grammar.import? name with
      | some i => simp [hi] at ht
      | none =>
        simp only [hi, ite_eq_right_iff, reduceCtorEq, imp_false] at ht
        exact .inr ⟨name, rfl, x, ref, hx, hk, hq, lookup_eq_none.1 hi, Ne.symm ht⟩
  | some target =>
    rw [ht] at h
    cases he : target.expression? ref.expression with
    | some e => simp [he] at h
    | none =>
      simp only [he] at h
      cases h
      exact .inl ⟨target.name, rfl, x, ref, target, hx, hk, rfl,
        Grammar.target?_eq_some_iff.1 ht, rfl, lookup_eq_none.1 he⟩

/-- Where all references lead somewhere, no expression is missing. -/
theorem Resolves.not_missesExpression (h : n.Resolves) (expression grammar : String) :
    ¬ n.MissesExpression expression grammar := by
  rintro ⟨x, ref, target, hx, hk, rfl, ht, -, hnone⟩
  obtain ⟨n', hn'⟩ := h x ref hx hk
  obtain ⟨ht', he⟩ := leadsTo_iff.1 hn'
  -- a reference has one target
  rw [← Grammar.target?_eq_some_iff] at ht ht'
  obtain rfl : target = n'.grammar := Option.some.inj (ht.symm.trans ht')
  exact hnone _ (mem_of_lookup he) rfl

/-- Where all references lead somewhere, no grammar is missing. -/
theorem Resolves.not_missesGrammar (h : n.Resolves) (grammar : String) :
    ¬ n.MissesGrammar grammar := by
  rintro ⟨x, ref, hx, hk, hq, hnone, hname⟩
  obtain ⟨n', hn'⟩ := h x ref hx hk
  obtain ⟨ht, -⟩ := leadsTo_iff.1 hn'
  generalize n'.grammar = target at ht
  cases ht with
  | unqualified hq' => cases hq.symm.trans hq'
  | imported hq' hi =>
    obtain rfl := Option.some.inj (hq.symm.trans hq')
    exact hnone _ (mem_of_lookup hi) rfl
  | ownName hq' _ => exact hname (Option.some.inj (hq.symm.trans hq')).symm

/-- A grammar whose references have been checked has only nodes whose references lead somewhere. -/
theorem resolves_of_isClosed (h : n.grammar.isClosed = true)
    (he : n.expression ∈ n.grammar.expressions) : n.Resolves := by
  rintro x ref ⟨rule, hrule, hx⟩ hk
  simp only [Grammar.isClosed, List.all_eq_true] at h
  have hfound := h n.expression he rule hrule x hx
  simp only [Symbol.asReference?, hk, Option.all_some, Option.isSome_iff_exists] at hfound
  obtain ⟨e, he⟩ := hfound
  obtain ⟨g, hg, he⟩ := Option.bind_eq_some_iff.1 he
  exact ⟨⟨g, e⟩, leadsTo_iff.2 ⟨Grammar.target?_eq_some_iff.1 hg, he⟩⟩

end Node

/-! ### What can be reached -/

namespace Grammar

variable {g : Grammar τ} {n n' : Node τ}

/-- The nodes that references lead to from the root, which is one of them. -/
def reachable (g : Grammar τ) : Set (Node τ) :=
  {n | ∃ e, g.root? = some e ∧ ReflTransGen Node.RefersTo ⟨g, e⟩ n}

theorem root_mem_reachable {e : Expression τ} (he : g.root? = some e) :
    (⟨g, e⟩ : Node τ) ∈ g.reachable := ⟨e, he, .refl⟩

theorem mem_reachable_of_refersTo (hn : n ∈ g.reachable) (h : n.RefersTo n') :
    n' ∈ g.reachable := by
  obtain ⟨e, he, hpath⟩ := hn
  exact ⟨e, he, hpath.tail h⟩

/-- What can be reached is in the grammar or in a part of it. -/
theorem isPartOf_of_mem_reachable (h : n ∈ g.reachable) :
    n.grammar.IsPartOf g ∧ n.expression ∈ n.grammar.expressions := by
  obtain ⟨e, he, hpath⟩ := h
  induction hpath with
  | refl => exact ⟨.self, mem_of_root? he⟩
  | tail _ hstep ih =>
    obtain ⟨_, _, _, _, hlead⟩ := hstep
    exact ih.1.of_resolve hlead

theorem reachable_subset (g : Grammar τ) :
    g.reachable ⊆ (fun x : Grammar τ × Expression τ => ⟨x.1, x.2⟩) '' {x | x ∈ g.members} := by
  intro n hn
  obtain ⟨hpart, he⟩ := isPartOf_of_mem_reachable hn
  exact ⟨(n.grammar, n.expression), hpart.mem_members he, rfl⟩

theorem finite_reachable (g : Grammar τ) : g.reachable.Finite :=
  ((List.finite_toSet g.members).image _).subset g.reachable_subset

theorem ncard_reachable_le (g : Grammar τ) : g.reachable.ncard ≤ g.expressionCount := by
  classical
  have hfinite : {x | x ∈ g.members}.Finite := List.finite_toSet g.members
  have hmembers : {x | x ∈ g.members} = (g.members.toFinset : Set _) := by
    ext x
    simp
  calc g.reachable.ncard
      ≤ ((fun x : Grammar τ × Expression τ => (⟨x.1, x.2⟩ : Node τ)) ''
          {x | x ∈ g.members}).ncard :=
        Set.ncard_le_ncard g.reachable_subset (hfinite.image _)
    _ ≤ {x | x ∈ g.members}.ncard := Set.ncard_image_le hfinite
    _ = g.members.toFinset.card := by rw [hmembers, Set.ncard_coe_finset]
    _ ≤ g.members.length := List.toFinset_card_le _
    _ = g.expressionCount := g.length_members

end Grammar

/-! ### Frames -/

/-- The expression of a frame with its active grammar. -/
def Frame.node (f : Frame τ) : Node τ := ⟨f.grammar, f.expression⟩

/-- References lead from the node of a frame to that of the frame they open. -/
theorem Frame.leadsTo_of_resolve {f f' : Frame τ} {ref : Reference} (h : f.resolve ref = .ok f') :
    f.node.LeadsTo ref f'.node := by
  obtain ⟨g, e, hr, rfl⟩ := Frame.resolve_eq_ok h
  exact hr

/-- A look-up that fails in a frame fails in its node. -/
theorem Frame.resolve_node_of_error {f : Frame τ} {ref : Reference} {err : GrammarError}
    (h : f.resolve ref = .error err) :
    f.node.grammar.resolve ref f.node.expression.name = .error err := by
  unfold Frame.resolve at h
  change f.grammar.resolve ref f.expression.name = .error err
  cases hr : f.grammar.resolve ref f.expression.name with
  | error err' =>
    rw [hr] at h
    cases h
    rfl
  | ok x =>
    rw [hr] at h
    cases h

end OrderedChoice
