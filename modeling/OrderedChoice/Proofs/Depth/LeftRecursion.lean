import Mathlib.Data.Set.Card
import Mathlib.Logic.Relation
import OrderedChoice.Proofs.Depth.Limit
import OrderedChoice.Proofs.Nullable
import OrderedChoice.Proofs.Semantics.Nesting

/-!
# Nesting without left recursion

An expression that is entered from another one without any text used up in between is one that
the other left-reaches (`leftReaches_of_mem_requestsInside`).  So where no expression left-reaches
itself, no expression is open twice at one place, and no more expressions are open at once than
there are pairs of an expression and an offset.

* `ncard_beyond_lt_of_rel`: without cycles, there is less beyond each step than before it;
* `rank_lt_of_mem_requestsInside`: what lies beyond an expression at a place is a rank, as in
  `level_le_of_rank` and `ends_of_rank`;
* `Session.parse_nesting` bounds the nesting of a parse, which then needs no limit to end.
-/

namespace OrderedChoice

open Relation

variable {τ : Type}

/-! ### What is entered without text used up -/

/-- The expression of a request with its active grammar. -/
def Request.node (q : Request τ) : Node τ := ⟨q.grammar, q.expression⟩

section

variable {call : Matcher τ} {g : Grammar τ} {e : Expression τ} {m : Machine τ} {q : Request τ}

/-- A symbol asks for the expression that it refers to. -/
theorem leadsTo_of_mem_requestsOfSymbol {x : Symbol} (hq : q ∈ requestsOfSymbol call g e x m) :
    ∃ ref, x.kind = .reference ref ∧ Node.LeadsTo ⟨g, e⟩ ref q.node := by
  unfold requestsOfSymbol at hq
  split at hq
  · rename_i ref hk
    split at hq
    · rename_i g' e' hr
      obtain ⟨_, -, rfl⟩ := List.mem_map.1 hq
      exact ⟨ref, hk, hr⟩
    · cases hq
  · cases hq

variable {s : Setting τ} {d : Nat} (hcall : call.Follows s True (Matches s) (d + 1))
  (hl : call.Logs)

section

include hcall

/-- A symbol behind which a rule goes on from the same place is nullable. -/
theorem nullable_of_matchSymbol {x : Symbol} {v : Value} {m' : Machine τ} (hd : m.depth = d + 1)
    (h : applyLookahead x.lookahead m.position (matchSymbol call g e x (m.atSymbol x)) =
      ⟨.matched v, m'⟩) (hc : m'.cursor = m.cursor) : Node.Nullable ⟨g, e⟩ x := by
  by_cases hlook : x.lookahead = .consume
  · have hmeets := meets_matchSymbol (g := g) (e := e) hcall x (m.atSymbol x) hd
    rw [hlook] at h
    have hderives : Derives s (Matches s) (.symbol (s.frame d g e) x m.position
        (.ok v m'.position)) := by
      refine hmeets.of_result? ?_
      change matchSymbol call g e x (m.atSymbol x) = ⟨.matched v, m'⟩ at h
      rw [h]
      rfl
    exact hderives.idleNullable (fun _ _ _ => Matches.isAheadOf)
      (fun _ _ _ => Matches.matchesEmpty) ⟨v, m'.position, rfl, hc⟩
  · exact .lookahead hlook

end

include hcall hl

/-- The symbols of a rule ask for an expression where the rule was begun only behind nullable
symbols. -/
theorem mem_requestsOfSymbols (xs : List Symbol) (m : Machine τ) (hd : m.depth = d + 1)
    (hq : q ∈ requestsOfSymbols call g e xs m) :
    ∃ before x after ref, xs = before ++ x :: after ∧ x.kind = .reference ref ∧
      Node.LeadsTo ⟨g, e⟩ ref q.node ∧
      (q.machine.cursor = m.cursor → ∀ y ∈ before, Node.Nullable ⟨g, e⟩ y) := by
  induction xs generalizing m with
  | nil => cases hq
  | cons x xs ih =>
    rw [requestsOfSymbols, List.mem_append] at hq
    rcases hq with hq | hq
    · obtain ⟨ref, hk, hlead⟩ := leadsTo_of_mem_requestsOfSymbol hq
      exact ⟨[], x, xs, ref, rfl, hk, hlead, fun _ _ hy => absurd hy List.not_mem_nil⟩
    · have hx : Attempt.Exact m.position m.depth
          (applyLookahead x.lookahead m.position (matchSymbol call g e x (m.atSymbol x))) :=
        exact_applyLookahead x.lookahead (exact_matchSymbol hcall.exact x (m.atSymbol x))
      rcases hr : applyLookahead x.lookahead m.position (matchSymbol call g e x (m.atSymbol x))
        with ⟨o, m'⟩
      rw [hr] at hq hx
      cases o with
      | matched v =>
        obtain ⟨hreach, hdepth⟩ : m.position.Reaches m'.position ∧ m'.depth = m.depth := hx
        obtain ⟨before, y, after, ref, rfl, hk, hlead, hbefore⟩ := ih m' (hdepth.trans hd) hq
        refine ⟨x :: before, y, after, ref, rfl, hk, hlead, fun hc => ?_⟩
        -- where the request has not moved on, neither has this symbol
        have hle : m.cursor ≤ m'.cursor := hreach.offset_le
        have hle' : m'.cursor ≤ q.machine.cursor :=
          ((makes_matchSymbols hcall.exact hl ⟨[], none⟩ m.position _ m').asked q
            hq).1.reaches.offset_le
        exact List.forall_mem_cons.2 ⟨nullable_of_matchSymbol hcall hd hr (by omega),
          hbefore (by omega)⟩
      | mismatch => cases hq
      | error err => cases hq
      | endless => cases hq

omit hl in
/-- Each request of an expression is one of a rule that was begun at the same place. -/
theorem mem_requestsOfRules (rules : List (Rule τ)) (m : Machine τ) (hd : m.depth = d + 1)
    (hq : q ∈ requestsOfRules s call g e rules m) :
    ∃ rule ∈ rules, ∃ m', m'.position = m.position ∧ m'.depth = d + 1 ∧
      q ∈ requestsOfSymbols call g e rule.symbols m' := by
  induction rules generalizing m with
  | nil => cases hq
  | cons rule rules ih =>
    rw [requestsOfRules, List.mem_append] at hq
    rcases hq with hq | hq
    · exact ⟨rule, List.mem_cons_self, m.atRule rule, rfl, hd, hq⟩
    · have hx := exact_matchRule (g := g) (e := e) s hcall.exact rule m
      rcases hr : matchRule s call g e rule m with ⟨o, m'⟩
      rw [hr] at hq hx
      cases o with
      | mismatch =>
        obtain ⟨hp, hdepth⟩ : m'.position = m.position ∧ m'.depth = m.depth := hx
        obtain ⟨rule', hrule', m'', hp', hd', hq'⟩ := ih m' (hdepth.trans hd) hq
        exact ⟨rule', List.mem_cons_of_mem _ hrule', m'', hp'.trans hp, hd', hq'⟩
      | matched v => cases hq
      | error err => cases hq
      | endless => cases hq

end

variable {s : Setting τ} {bound : Nat} {q q' : Request τ}

/-- An expression asks for those that it refers to, and where it was entered itself only for those
that it left-reaches. -/
theorem leftReaches_of_mem_requestsInside
    (hq : q' ∈ requestsInside s (matchExpression s bound) q) :
    q.node.RefersTo q'.node ∧
      (q'.machine.cursor = q.machine.cursor → q.node.LeftReaches q'.node) := by
  have hcall := follows_matchExpression s bound (q.machine.depth + 1)
  have hl := logs_matchExpression s bound
  obtain ⟨rule, hrule, m, hp, hd, hq⟩ := mem_requestsOfRules hcall q.expression.rules
    (q.machine.enter q.expression) rfl hq
  obtain ⟨before, x, after, ref, hsymbols, hk, hlead, hbefore⟩ :=
    mem_requestsOfSymbols hcall hl rule.symbols m hd hq
  refine ⟨Node.refersTo_of_symbols hrule hsymbols hk hlead, fun hc => ?_⟩
  have hm : m.cursor = q.machine.cursor := congrArg Position.offset hp
  exact ⟨rule, hrule, before, x, after, ref, hsymbols, hbefore (hc.trans hm.symm), hk, hlead⟩

/-! ### Steps without cycles -/

section

variable {α : Type} {r : α → α → Prop} {W : Set α} {a b : α}

/-- What one or more steps lead to. -/
def beyond (r : α → α → Prop) (a : α) : Set α := {b | TransGen r a b}

theorem ncard_beyond_lt_of_rel (hfinite : (beyond r a).Finite) (h : r a b)
    (hacyclic : ¬ TransGen r b b) : (beyond r b).ncard < (beyond r a).ncard := by
  refine Set.ncard_lt_ncard ⟨fun c hc => .head h hc, fun hsub => hacyclic ?_⟩ hfinite
  exact hsub (.single h)

/-- A rank that goes down with each step shows that there are no cycles. -/
theorem not_transGen_of_rank (rank : α → Nat)
    (hstep : ∀ a ∈ W, ∀ b, r a b → b ∈ W ∧ rank b < rank a) (ha : a ∈ W) :
    ¬ TransGen r a a := by
  have hdown : ∀ b, TransGen r a b → b ∈ W ∧ rank b < rank a := by
    intro b hb
    induction hb with
    | single h => exact hstep a ha _ h
    | tail _ h ih =>
      obtain ⟨hb, hlt⟩ := hstep _ ih.1 _ h
      exact ⟨hb, hlt.trans ih.2⟩
  exact fun h => Nat.lt_irrefl _ (hdown a h).2

theorem ncard_beyond_lt (hfinite : W.Finite) (hsub : beyond r a ⊆ W) (ha : a ∈ W)
    (hacyclic : ¬ TransGen r a a) : (beyond r a).ncard < W.ncard :=
  Set.ncard_lt_ncard ⟨hsub, fun h => hacyclic (h ha)⟩ hfinite

end

/-! ### Expressions at places -/

/-- An expression at an offset asks for another one at an offset within a text of so many bytes. -/
def Enters (length : Nat) (a b : Node τ × Nat) : Prop :=
  a.1.RefersTo b.1 ∧ a.2 ≤ b.2 ∧ b.2 ≤ length ∧ (b.2 = a.2 → a.1.LeftReaches b.1)

/-- The expressions of a grammar at the offsets of a text of so many bytes. -/
def Grammar.spots (g : Grammar τ) (length : Nat) : Set (Node τ × Nat) :=
  g.reachable ×ˢ (Finset.range (length + 1) : Set Nat)

section

variable {g : Grammar τ} {length : Nat} {a b : Node τ × Nat}

theorem Grammar.mem_spots : a ∈ g.spots length ↔ a.1 ∈ g.reachable ∧ a.2 ≤ length := by
  simp [spots, Set.mem_prod]

theorem Grammar.finite_spots (g : Grammar τ) (length : Nat) : (g.spots length).Finite :=
  g.finite_reachable.prod (Finset.finite_toSet _)

theorem Grammar.ncard_spots (g : Grammar τ) (length : Nat) :
    (g.spots length).ncard = g.reachable.ncard * (length + 1) := by
  rw [spots, Set.ncard_prod, Set.ncard_coe_finset, Finset.card_range]

theorem Grammar.mem_spots_of_enters (ha : a ∈ g.spots length) (h : Enters length a b) :
    b ∈ g.spots length :=
  mem_spots.2 ⟨mem_reachable_of_refersTo (mem_spots.1 ha).1 h.1, h.2.2.1⟩

theorem beyond_enters_subset (ha : a ∈ g.spots length) :
    beyond (Enters length) a ⊆ g.spots length := by
  intro b hb
  induction hb with
  | single h => exact Grammar.mem_spots_of_enters ha h
  | tail _ h ih => exact Grammar.mem_spots_of_enters ih h

/-- A chain of expressions that ends where it has begun left-reaches the last of them. -/
theorem leftReaches_of_transGen_enters (h : TransGen (Enters length) a b) :
    a.2 ≤ b.2 ∧ (b.2 = a.2 → TransGen Node.LeftReaches a.1 b.1) := by
  induction h with
  | single h => exact ⟨h.2.1, fun hc => .single (h.2.2.2 hc)⟩
  | tail _ h ih =>
    obtain ⟨hle, hreach⟩ := ih
    obtain ⟨-, hle', -, hstep⟩ := h
    exact ⟨hle.trans hle', fun hc => (hreach (by omega)).tail (hstep (by omega))⟩

end

/-! ### The rank of a request -/

/-- The request is for an expression of the grammar at a place in the text. -/
def Request.IsIn (q : Request τ) (g : Grammar τ) (text : List Char) : Prop :=
  q.node ∈ g.reachable ∧ (Position.start text).Reaches q.machine.position

/-- The number of expressions at places that may be entered from the request. -/
noncomputable def Request.rank (text : List Char) (q : Request τ) : Nat :=
  (beyond (Enters (byteLength text)) (q.node, q.machine.cursor)).ncard

section

variable {g : Grammar τ} {text : List Char}

theorem Request.IsIn.mem_spots (h : q.IsIn g text) :
    (q.node, q.machine.cursor) ∈ g.spots (byteLength text) :=
  Grammar.mem_spots.2 ⟨h.1, h.2.offset_le_byteLength⟩

variable (hacyclic : ∀ n ∈ g.reachable, ¬ TransGen Node.LeftReaches n n)
include hacyclic

theorem Request.IsIn.not_transGen_enters (h : q.IsIn g text) :
    ¬ TransGen (Enters (byteLength text)) (q.node, q.machine.cursor) (q.node, q.machine.cursor) :=
  fun hcycle => hacyclic _ h.1 ((leftReaches_of_transGen_enters hcycle).2 rfl)

theorem Request.IsIn.rank_lt (h : q.IsIn g text) :
    q.rank text < g.reachable.ncard * (byteLength text + 1) := by
  rw [← g.ncard_spots]
  exact ncard_beyond_lt (g.finite_spots _) (beyond_enters_subset h.mem_spots) h.mem_spots
    (h.not_transGen_enters hacyclic)

/-- The rank goes down from an expression to those that it asks for. -/
theorem rank_lt_of_mem_requestsInside (h : q.IsIn g text)
    (hq : q' ∈ requestsInside s (matchExpression s bound) q) :
    q'.IsIn g text ∧ q'.rank text < q.rank text := by
  obtain ⟨hrefers, hleft⟩ := leftReaches_of_mem_requestsInside hq
  have hreach : q.machine.position.Reaches q'.machine.position :=
    ((makes_requestsInside s bound q).asked q' hq).1.reaches
  have h' : q'.IsIn g text :=
    ⟨Grammar.mem_reachable_of_refersTo h.1 hrefers, h.2.trans hreach⟩
  refine ⟨h', ncard_beyond_lt_of_rel ?_ ?_ (h'.not_transGen_enters hacyclic)⟩
  · exact (g.finite_spots _).subset (beyond_enters_subset h.mem_spots)
  · exact ⟨hrefers, hreach.offset_le, h'.2.offset_le_byteLength, hleft⟩

end

/-! ### Parses -/

namespace Session

section

variable {s : Session τ} {input : String}

theorem isIn_rootRequest {e : Expression τ} (he : s.grammar.root? = some e) (text : List Char) :
    (s.rootRequest text e).IsIn s.grammar text :=
  ⟨Grammar.root_mem_reachable he, .refl _⟩

variable (hacyclic : ∀ n ∈ s.grammar.reachable, ¬ TransGen Node.LeftReaches n n)
include hacyclic

theorem deepest_visits_le (text : List Char) :
    deepest (s.visits text) ≤ s.grammar.reachable.ncard * (byteLength text + 1) := by
  rw [deepest_le_iff]
  intro v hv
  obtain ⟨e, he, hv⟩ := exists_root_of_mem_visits hv
  have hroot := isIn_rootRequest he text
  have hrank := hroot.rank_lt hacyclic
  have hlevel := level_le_of_rank (fun q => q.IsIn s.grammar text) (Request.rank text)
    (fun _ _ h _ _ hq => rank_lt_of_mem_requestsInside hacyclic h hq) hroot hv
  omega

theorem parse_ends_of_acyclic (hm : s.config.maxDepth = none) :
    (s.parse input).1.outcome ≠ .endless := by
  refine parse_ne_endless input fun e he => ?_
  have hroot := isIn_rootRequest he input.toList
  refine ends_of_rank (fun q => q.IsIn s.grammar input.toList) (Request.rank input.toList)
    (fun _ _ h _ _ hq => rank_lt_of_mem_requestsInside hacyclic h hq) hroot ?_
  calc (s.rootRequest input.toList e).rank input.toList
      < s.grammar.reachable.ncard * (byteLength input.toList + 1) := hroot.rank_lt hacyclic
    _ ≤ s.grammar.expressionCount * (byteLength input.toList + 1) :=
        Nat.mul_le_mul_right _ s.grammar.ncard_reachable_le
    _ < nestingBound s.grammar s.config input.toList := by
        simp only [nestingBound, hm]
        omega

end

/-- **Without left recursion a parse ends.**  Where no expression that can be reached left-reaches
itself, no more expressions are open at once than there are pairs of one that can be reached and an
offset.  A parse without a limit ends, and one with a limit that is as large gives the same report,
which is not the error about nesting. -/
theorem parse_nesting (s : Session τ) (input : String)
    (hacyclic : ∀ n ∈ s.grammar.reachable, ¬ TransGen Node.LeftReaches n n) :
    let most := s.grammar.reachable.ncard * (byteLength input.toList + 1)
    let unlimited := (s.withMaxDepth none).parse input
    deepest (s.visits input.toList) ≤ most ∧
    unlimited.1.outcome ≠ .endless ∧
    ∀ limit : UInt64, most ≤ limit.toNat →
      let limited := (s.withMaxDepth (some limit)).parse input
      (∀ n e, limited.1.outcome ≠ .error (.depthExceeded n e)) ∧ limited.1 = unlimited.1 := by
  intro most unlimited
  have hends : unlimited.1.outcome ≠ .endless :=
    parse_ends_of_acyclic (s := s.withMaxDepth none) hacyclic rfl
  have hdeep : ∀ n e, unlimited.1.outcome ≠ .error (.depthExceeded n e) := by
    intro n e h
    obtain ⟨l, hl, -⟩ := (s.withMaxDepth none).maxDepth_of_depthExceeded input h
    cases hl
  refine ⟨deepest_visits_le hacyclic input.toList, hends, fun limit hlimit => ?_⟩
  have hvisits : deepest ((s.withMaxDepth none).visits input.toList) ≤ most :=
    deepest_visits_le (s := s.withMaxDepth none) hacyclic input.toList
  have hsame := report_eq_of_deepest_le input limit (fun _ => hends) hdeep (hvisits.trans hlimit)
  intro limited
  exact ⟨fun n e h => hdeep n e (hsame ▸ h), hsame⟩

end Session

theorem mem_reachable_brackets {n : Node Empty} (h : n ∈ brackets.reachable) :
    n = ⟨brackets, bracket⟩ ∨ n = ⟨signs, ⟨"sign", [⟨[.literal "-"], none⟩]⟩⟩ := by
  obtain ⟨e, he, hpath⟩ := h
  cases he
  induction hpath with
  | refl => exact .inl rfl
  | @tail _ n' _ hstep ih =>
    obtain ⟨x, ref, ⟨rule, hrule, hx⟩, hk, hlead⟩ := hstep
    obtain ⟨g, e⟩ := n'
    rcases ih with rfl | rfl
    · obtain rfl := List.mem_singleton.1 hrule
      simp only [List.mem_cons, List.not_mem_nil, or_false] at hx
      rcases hx with rfl | rfl | rfl | rfl <;> cases hk <;> cases hlead
      · exact .inr rfl
      · exact .inl rfl
    · obtain rfl := List.mem_singleton.1 hrule
      obtain rfl := List.mem_singleton.1 hx
      cases hk

/-- Only signs are entered before any text is used up. -/
theorem leftReaches_brackets {n n' : Node Empty} (hn : n ∈ brackets.reachable)
    (h : n.LeftReaches n') : n.grammar = brackets ∧ n'.grammar = signs := by
  obtain ⟨rule, hrule, before, x, after, ref, hsymbols, hbefore, hk, hlead⟩ := h
  obtain ⟨g, e⟩ := n'
  rcases mem_reachable_brackets hn with rfl | rfl
  · obtain rfl := List.mem_singleton.1 hrule
    rcases before with _ | ⟨a, _ | ⟨b, before⟩⟩
    · cases hsymbols
      cases hk
      cases hlead
      exact ⟨rfl, rfl⟩
    · cases hsymbols
      cases hk
    · -- what is behind the opening bracket is not reached before it
      obtain ⟨rfl, hrest⟩ := List.cons.inj hsymbols
      obtain ⟨rfl, -⟩ := List.cons.inj hrest
      have hopening : Node.Nullable ⟨brackets, bracket⟩ (.literal "(") :=
        hbefore _ (List.mem_cons_of_mem _ List.mem_cons_self)
      exact absurd hopening (Node.not_nullable_literal (by decide))
  · obtain rfl := List.mem_singleton.1 hrule
    rcases before with _ | ⟨a, before⟩
    · cases hsymbols
      cases hk
    · simp at hsymbols

theorem Session.parse_nesting_brackets :
    (∀ n ∈ brackets.reachable, ¬ TransGen Node.LeftReaches n n) ∧
    ((bracketSession.withMaxDepth (some 12)).parse "(-())").1 =
      ((bracketSession.withMaxDepth none).parse "(-())").1 := by
  have hacyclic : ∀ n ∈ brackets.reachable, ¬ TransGen Node.LeftReaches n n := by
    intro n hn
    refine not_transGen_of_rank (fun n => n.grammar.imports.length) (fun n hn n' h => ?_) hn
    obtain ⟨hbrackets, hsigns⟩ := leftReaches_brackets hn h
    refine ⟨Grammar.mem_reachable_of_refersTo hn h.refersTo, ?_⟩
    rw [hbrackets, hsigns]
    decide
  have hcount : brackets.reachable.ncard ≤ 2 := brackets.ncard_reachable_le
  exact ⟨hacyclic,
    ((parse_nesting bracketSession "(-())" hacyclic).2.2 12 (Nat.mul_le_mul_right 6 hcount)).2⟩

end OrderedChoice
