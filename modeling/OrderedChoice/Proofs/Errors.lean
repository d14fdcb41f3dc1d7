import OrderedChoice.Proofs.References
import OrderedChoice.Proofs.Semantics.Adequacy

/-!
# Errors are about the grammar

An error arises in one place and is passed on unchanged by everything around it: it is either the
error of a reference that is looked up in vain, or that of an expression which nests too deeply.

* `Judgement.Blames` is the origin of an error within one expression, and `Derives.blames` says
  that there always is one;
* `Matches.isAbout`: the error that an expression comes to is about a node which references lead
  to from it, and what it says is true of that node;
* `Session.parse_errors` says what follows for each error of a parse.
-/

namespace OrderedChoice

open Relation

variable {τ : Type}

/-! ### Within an expression -/

theorem Result.map_eq_err {α β : Type} {f : α → β} {r : Result α} {x : GrammarError}
    (h : r.map f = .err x) : r = .err x := by
  cases r <;> cases h
  rfl

namespace Judgement

/-- The error that a construct comes to. -/
def Errs : Judgement τ → GrammarError → Prop
  | repetition _ _ r, x => r = .err x
  | quantified _ _ _ r, x => r = .err x
  | symbol _ _ _ r, x => r = .err x
  | symbols _ _ _ r, x => r = .err x
  | rule _ _ _ r, x => r = .err x
  | rules _ _ _ r, x => r = .err x

/-- The error is that of a reference among some symbols of a frame, which leads nowhere or to an
expression that comes to this error. -/
def BlamesSymbol (R : Semantics τ) (f : Frame τ) (among : Symbol → Prop) (x : GrammarError) :
    Prop :=
  ∃ y ref, among y ∧ y.kind = .reference ref ∧
    (f.resolve ref = .error x ∨ ∃ f' p', f.resolve ref = .ok f' ∧ R f' p' (.err x))

/-- The origin of an error. -/
def Blames (R : Semantics τ) : Judgement τ → GrammarError → Prop
  | repetition f _ _, x => ∃ p', R f p' (.err x)
  | quantified _ f _ _, x => ∃ p', R f p' (.err x)
  | symbol f y _ _, x => BlamesSymbol R f (· = y) x
  | symbols f ys _ _, x => BlamesSymbol R f (· ∈ ys) x
  | rule f y _ _, x => BlamesSymbol R f (· ∈ y.symbols) x
  | rules f ys _ _, x => BlamesSymbol R f (fun z => ∃ y ∈ ys, z ∈ y.symbols) x

theorem BlamesSymbol.mono {R : Semantics τ} {f : Frame τ} {among among' : Symbol → Prop}
    {x : GrammarError} (h : BlamesSymbol R f among x) (hsub : ∀ y, among y → among' y) :
    BlamesSymbol R f among' x := by
  obtain ⟨y, ref, hy, hrest⟩ := h
  exact ⟨y, ref, hsub y hy, hrest⟩

end Judgement

theorem Terminal.Takes.ne_err {t : Terminal} {q : Quantifier} {p : Position} {r : Result Value}
    (h : t.Takes q p r) (x : GrammarError) : r ≠ .err x := by
  cases h <;> nofun

/-- An error of a construct is that of one of its references. -/
theorem Derives.blames {s : Setting τ} {R : Semantics τ} {J : Judgement τ} {x : GrammarError}
    (d : Derives s R J) (hx : J.Errs x) : J.Blames R x := by
  induction d with
  | repeatEnd | repeatIdle | absent | tooFew | done | failed | transformed | plain | ruleFails
  | noRule => cases hx
  | repeatOn _ _ _ ih => exact ih (Result.map_eq_err hx)
  | repeatError h =>
    cases hx
    exact ⟨_, h⟩
  | one h => exact ⟨_, hx ▸ h⟩
  | optional h _ => exact ⟨_, hx ▸ h⟩
  | zeroOrMore _ ih => exact ih (Result.map_eq_err hx)
  | oneOrMore _ _ ih => exact ih (Result.map_eq_err hx)
  | literal _ h => exact absurd hx (h.ne_err x)
  | pattern _ h => exact absurd hx (h.ne_err x)
  | reference hk hf _ ih =>
    obtain ⟨p', h⟩ := ih hx
    exact ⟨_, _, rfl, hk, .inr ⟨_, p', hf, h⟩⟩
  | unresolved hk hf =>
    cases hx
    exact ⟨_, _, rfl, hk, .inl hf⟩
  -- an error behind the first symbol is one of the symbols that follow it
  | kept _ _ _ _ ih' => exact (ih' (Result.map_eq_err hx)).mono fun _ => List.mem_cons_of_mem _
  | givenBack _ _ _ _ ih' => exact (ih' (Result.map_eq_err hx)).mono fun _ => List.mem_cons_of_mem _
  | passedOver _ _ _ _ ih' =>
    exact (ih' (Result.map_eq_err hx)).mono fun _ => List.mem_cons_of_mem _
  | broken _ ih =>
    cases hx
    refine (ih rfl).mono ?_
    rintro _ rfl
    exact List.mem_cons_self
  | ruleError _ ih =>
    cases hx
    exact ih rfl
  | chosen _ _ ih => exact (ih hx).mono fun _ h => ⟨_, List.mem_cons_self, h⟩
  | next _ _ _ ih' =>
    refine (ih' hx).mono ?_
    rintro z ⟨y, hy, hz⟩
    exact ⟨y, List.mem_cons_of_mem _ hy, hz⟩

/-! ### Through nested expressions -/

/-- What an error says is true of a node, under a limit on nesting. -/
def GrammarError.IsAbout (x : GrammarError) (limit : Option Nat) (n : Node τ) : Prop :=
  match x with
  | unknownExpression expression grammar referrer =>
    n.expression.name = referrer ∧ n.MissesExpression expression grammar
  | unknownGrammar grammar active referrer =>
    n.expression.name = referrer ∧ n.grammar.name = active ∧ n.MissesGrammar grammar
  | depthExceeded l expression => n.expression.name = expression ∧ limit = some l
  | missingRoot _ | invalidPattern _ _ => False

theorem Node.isAbout_of_resolve {n : Node τ} {y : Symbol} {ref : Reference} {x : GrammarError}
    (limit : Option Nat) (hy : n.HasSymbol y) (hk : y.kind = .reference ref)
    (h : n.grammar.resolve ref n.expression.name = .error x) : x.IsAbout limit n := by
  rcases Node.misses_of_resolve hy hk h with ⟨grammar, rfl, hmiss⟩ | ⟨grammar, rfl, hmiss⟩
  · exact ⟨rfl, hmiss⟩
  · exact ⟨rfl, rfl, hmiss⟩

/-- The error that an expression comes to is about a node that references lead to from it. -/
theorem Matches.isAbout {s : Setting τ} {f : Frame τ} {p : Position} {x : GrammarError}
    (h : Matches s f p (.err x)) :
    ∃ n, ReflTransGen Node.RefersTo f.node n ∧ x.IsAbout s.limit n := by
  refine Matches.induct (P := fun f _ r => ∀ x, r = .err x →
    ∃ n, ReflTransGen Node.RefersTo f.node n ∧ x.IsAbout s.limit n) ?_ ?_ h x rfl
  · rintro f p limit - hl _ ⟨⟩
    exact ⟨f.node, .refl, rfl, hl⟩
  · rintro f p r - d x hx
    obtain ⟨y, ref, hy, hk, hfound | ⟨f', p', hfound, hinner⟩⟩ := d.blames hx
    · exact ⟨f.node, .refl, Node.isAbout_of_resolve s.limit hy hk
        (Frame.resolve_node_of_error hfound)⟩
    · obtain ⟨n, hpath, hn⟩ := hinner.2 x rfl
      exact ⟨n, .head ⟨y, ref, hy, hk, Frame.leadsTo_of_resolve hfound⟩ hpath, hn⟩

/-! ### Parses -/

namespace Session

variable (s : Session τ) (input : String)

/-- A parse that ends in an error has no root to start from, or the error is about a node that can
be reached from the root. -/
theorem error_cases {x : GrammarError} (h : (s.parse input).1.outcome = .error x) :
    (s.grammar.root? = none ∧ x = .missingRoot s.grammar.name) ∨
      ∃ n ∈ s.grammar.reachable, x.IsAbout (s.config.maxDepth.map (·.toNat)) n := by
  have hy : s.Yields input.toList (.error x) := (s.answer?_parse_iff input _).1 (by rw [h]; rfl)
  cases hy with
  | noRoot he => exact .inl ⟨he, rfl⟩
  | error he hmatches =>
    obtain ⟨n, hpath, hn⟩ := hmatches.isAbout
    exact .inr ⟨n, ⟨_, he, hpath⟩, hn⟩

/-- All errors but that of a missing root are about a node. -/
theorem exists_isAbout {x : GrammarError} (h : (s.parse input).1.outcome = .error x)
    (hx : ∀ name, x ≠ .missingRoot name) :
    ∃ n ∈ s.grammar.reachable, x.IsAbout (s.config.maxDepth.map (·.toNat)) n := by
  rcases s.error_cases input h with ⟨-, rfl⟩ | habout
  · exact absurd rfl (hx _)
  · exact habout

theorem root?_eq_none_iff (g : Grammar τ) :
    g.root? = none ↔ g.rootName = none ∨
      ∃ name, g.rootName = some name ∧ ∀ entry ∈ g.expressionTable, entry.1 ≠ name := by
  unfold Grammar.root? Grammar.expression?
  cases g.rootName with
  | none => simp
  | some name => simp only [Option.bind_some, lookup_eq_none, reduceCtorEq, false_or,
      Option.some.injEq, exists_eq_left']

theorem outcome_eq_missingRoot_iff {name : String} :
    (s.parse input).1.outcome = .error (.missingRoot name) ↔
      name = s.grammar.name ∧ s.grammar.root? = none := by
  constructor
  · intro h
    rcases s.error_cases input h with ⟨he, hx⟩ | ⟨n, -, habout⟩
    · cases hx
      exact ⟨rfl, he⟩
    · exact habout.elim
  · rintro ⟨rfl, he⟩
    exact Outcome.eq_of_answer? ((s.answer?_parse_iff input _).2 (.noRoot he)) rfl

/-- Only a limit on nesting can be exceeded. -/
theorem maxDepth_of_depthExceeded {limit : Nat} {expression : String}
    (h : (s.parse input).1.outcome = .error (.depthExceeded limit expression)) :
    ∃ l, s.config.maxDepth = some l ∧ limit = l.toNat := by
  obtain ⟨n, -, -, hl⟩ := s.exists_isAbout input h nofun
  obtain ⟨l, hmax, rfl⟩ := Option.map_eq_some_iff.1 hl
  exact ⟨l, hmax, rfl⟩

/-- A parse compiles no patterns. -/
theorem outcome_ne_invalidPattern (pattern message : String) :
    (s.parse input).1.outcome ≠ .error (.invalidPattern pattern message) := by
  intro h
  obtain ⟨n, -, habout⟩ := s.exists_isAbout input h nofun
  exact habout.elim

/-- Where there is a root and all references lead somewhere, only the nesting can be at fault. -/
theorem eq_depthExceeded_of_resolves (hroot : s.grammar.root?.isSome)
    (hresolves : ∀ n ∈ s.grammar.reachable, n.Resolves) {x : GrammarError}
    (h : (s.parse input).1.outcome = .error x) : ∃ limit e, x = .depthExceeded limit e := by
  rcases s.error_cases input h with ⟨he, -⟩ | ⟨n, hn, habout⟩
  · rw [he] at hroot
    cases hroot
  · cases x with
    | unknownExpression e g r =>
      exact absurd habout.2 ((hresolves n hn).not_missesExpression e g)
    | unknownGrammar g a r => exact absurd habout.2.2 ((hresolves n hn).not_missesGrammar g)
    | missingRoot name => exact habout.elim
    | invalidPattern p m => exact habout.elim
    | depthExceeded limit e => exact ⟨limit, e, rfl⟩

/-- **Errors are sound and precise.**  What an error says is missing is missing where it says, in a
rule of an expression that can be reached from the root, and no other errors arise. -/
theorem parse_errors :
    (∀ expression grammar referrer,
      (s.parse input).1.outcome = .error (.unknownExpression expression grammar referrer) →
      ∃ n ∈ s.grammar.reachable, n.expression.name = referrer ∧
        n.MissesExpression expression grammar) ∧
    (∀ grammar active referrer,
      (s.parse input).1.outcome = .error (.unknownGrammar grammar active referrer) →
      ∃ n ∈ s.grammar.reachable, n.expression.name = referrer ∧ n.grammar.name = active ∧
        n.MissesGrammar grammar) ∧
    (∀ name, (s.parse input).1.outcome = .error (.missingRoot name) ↔
      name = s.grammar.name ∧ (s.grammar.rootName = none ∨
        ∃ root, s.grammar.rootName = some root ∧
          ∀ entry ∈ s.grammar.expressionTable, entry.1 ≠ root)) ∧
    (∀ x, (s.parse input).1.outcome = .error x →
      (∃ expression grammar referrer, x = .unknownExpression expression grammar referrer) ∨
      (∃ grammar active referrer, x = .unknownGrammar grammar active referrer) ∨
      (∃ name, x = .missingRoot name) ∨
      ∃ limit expression, s.config.maxDepth = some limit ∧
        x = .depthExceeded limit.toNat expression) ∧
    (s.grammar.root?.isSome → (∀ n ∈ s.grammar.reachable, n.Resolves) →
      ∀ x, (s.parse input).1.outcome = .error x →
        ∃ limit expression, s.config.maxDepth = some limit ∧
          x = .depthExceeded limit.toNat expression) := by
  refine ⟨?_, ?_, ?_, ?_, ?_⟩
  · exact fun expression grammar referrer h => s.exists_isAbout input h nofun
  · exact fun grammar active referrer h => s.exists_isAbout input h nofun
  · intro name
    rw [s.outcome_eq_missingRoot_iff input, root?_eq_none_iff]
  · intro x h
    cases x with
    | unknownExpression e g r => exact .inl ⟨e, g, r, rfl⟩
    | unknownGrammar g a r => exact .inr (.inl ⟨g, a, r, rfl⟩)
    | missingRoot name => exact .inr (.inr (.inl ⟨name, rfl⟩))
    | invalidPattern p m => exact absurd h (s.outcome_ne_invalidPattern input p m)
    | depthExceeded limit e =>
      obtain ⟨l, hl, rfl⟩ := s.maxDepth_of_depthExceeded input h
      exact .inr (.inr (.inr ⟨l, e, hl, rfl⟩))
  · intro hroot hresolves x h
    obtain ⟨limit, e, rfl⟩ := s.eq_depthExceeded_of_resolves input hroot hresolves h
    obtain ⟨l, hl, rfl⟩ := s.maxDepth_of_depthExceeded input h
    exact ⟨l, e, hl, rfl⟩

end Session

end OrderedChoice
