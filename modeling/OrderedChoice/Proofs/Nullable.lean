import OrderedChoice.Proofs.References

/-!
# Symbols that may match nothing

`Node.Nullable` says of a symbol that it may match without using up any text, as far as can be told
from the grammar, and `Node.LeftReaches` is the edge of the graph of references along which an
expression may be entered before any text is used up.

`Matches.matchesEmpty`: an expression that matches nothing has a rule all of whose symbols are
nullable.
-/

namespace OrderedChoice

variable {τ : Type}

namespace Node

/-- The symbol of a rule may match nothing: it looks ahead, it may be absent, it is the empty text,
or it refers to an expression with a rule all of whose symbols may match nothing. -/
inductive Nullable : Node τ → Symbol → Prop
  | lookahead {n : Node τ} {x : Symbol} : x.lookahead ≠ .consume → Nullable n x
  | quantifier {n : Node τ} {x : Symbol} : x.quantifier.allowsNone = true → Nullable n x
  | emptyLiteral {n : Node τ} {x : Symbol} : x.kind = .literal "" → Nullable n x
  | reference {n n' : Node τ} {x : Symbol} {ref : Reference} {rule : Rule τ} :
      x.kind = .reference ref → n.LeadsTo ref n' → rule ∈ n'.expression.rules →
      (∀ y ∈ rule.symbols, Nullable n' y) → Nullable n x

/-- A rule of the expression has nullable symbols only. -/
def MatchesEmpty (n : Node τ) : Prop :=
  ∃ rule ∈ n.expression.rules, ∀ y ∈ rule.symbols, n.Nullable y

/-- A rule of `n` refers to `n'` behind nullable symbols only. -/
def LeftReaches (n n' : Node τ) : Prop :=
  ∃ rule ∈ n.expression.rules, ∃ before x after ref, rule.symbols = before ++ x :: after ∧
    (∀ y ∈ before, n.Nullable y) ∧ x.kind = .reference ref ∧ n.LeadsTo ref n'

/-- A node refers to what the references among the symbols of its rules lead to. -/
theorem refersTo_of_symbols {n n' : Node τ} {rule : Rule τ} {before after : List Symbol}
    {x : Symbol} {ref : Reference} (hrule : rule ∈ n.expression.rules)
    (hsymbols : rule.symbols = before ++ x :: after) (hk : x.kind = .reference ref)
    (hlead : n.LeadsTo ref n') : n.RefersTo n' := by
  refine ⟨x, ref, ⟨rule, hrule, ?_⟩, hk, hlead⟩
  rw [hsymbols]
  exact List.mem_append_right _ List.mem_cons_self

theorem LeftReaches.refersTo {n n' : Node τ} (h : n.LeftReaches n') : n.RefersTo n' := by
  obtain ⟨_, hrule, _, _, _, _, hsymbols, -, hk, hlead⟩ := h
  exact refersTo_of_symbols hrule hsymbols hk hlead

/-- A literal with some text, matched once, is not nullable. -/
theorem not_nullable_literal {n : Node τ} {text : String} (h : text ≠ "") :
    ¬ n.Nullable (.literal text) := by
  intro hn
  cases hn with
  | lookahead hl => exact hl rfl
  | quantifier hq => cases hq
  | emptyLiteral hk => exact h (SymbolKind.literal.inj hk)
  | reference hk => cases hk

end Node

/-! ### What matches nothing is nullable -/

/-- A result is idle where it is a success that leaves the place as it was. -/
def Result.IsIdle {α : Type} (r : Result α) (p : Position) : Prop :=
  ∃ a q, r = .ok a q ∧ q.offset = p.offset

theorem Result.IsIdle.of_map {α β : Type} {f : α → β} {r : Result α} {p : Position}
    (h : (r.map f).IsIdle p) : r.IsIdle p := by
  obtain ⟨b, q, hr, ho⟩ := h
  cases r <;> cases hr
  exact ⟨_, _, rfl, ho⟩

/-- What goes on from a place to an idle success has not moved at any point. -/
theorem Result.IsIdle.of_ahead {α : Type} {r : Result α} {p q : Position} (h : r.IsIdle p)
    (hp : p.Reaches q) (hr : r.IsAheadOf q) : q.offset = p.offset ∧ r.IsIdle q := by
  obtain ⟨a, q', rfl, ho⟩ := h
  have hpq := hp.offset_le
  have hqq' := (hr a q' rfl).offset_le
  exact ⟨by omega, a, q', rfl, by omega⟩

/-- Only the empty literal occurs without text. -/
theorem eq_empty_of_occurs {text : String} (h : (Terminal.literal text.toList).Occurs []) :
    text = "" := by
  rw [← String.toList_eq_nil_iff]
  generalize text.toList = cs at h
  cases h
  rfl

/-- Text that is matched without being used up may be absent or is empty. -/
theorem Terminal.Takes.of_idle {t : Terminal} {q : Quantifier} {p : Position} {r : Result Value}
    (h : t.Takes q p r) (hr : r.IsIdle p) : q.allowsNone = true ∨ t.Occurs [] := by
  obtain ⟨v, p', hv, ho⟩ := hr
  cases h with
  | missing => cases hv
  | absent _ hq => exact .inl hq
  | single _ hocc hs =>
    cases hv
    obtain rfl := hs.offset_eq_iff.1 ho
    exact .inr hocc
  | repeated _ hbegins hrun hs =>
    cases hv
    obtain rfl := hs.offset_eq_iff.1 ho
    obtain ⟨b, hb, hprefix⟩ := hbegins
    -- the longest run is no longer than nothing, so the first occurrence is empty
    have hlen := hrun.2.2 (b ++ []) (by simpa using hprefix) (.cons hb .nil)
    have hnil : b = [] := by simpa using hlen
    exact .inr (hnil ▸ hb)

/-- What an idle success of a construct says of its symbols. -/
def Judgement.IdleNullable : Judgement τ → Prop
  | repetition f p r => r.IsIdle p → (∃ q, r = .ok [] q) ∨ f.node.MatchesEmpty
  | quantified q f p r => r.IsIdle p → q.allowsNone = true ∨ f.node.MatchesEmpty
  | symbol f x p r => r.IsIdle p → f.node.Nullable x
  | symbols f xs p r => r.IsIdle p → ∀ y ∈ xs, f.node.Nullable y
  | rule f x p r => r.IsIdle p → ∀ y ∈ x.symbols, f.node.Nullable y
  | rules f xs p r => r.IsIdle p → ∃ x ∈ xs, ∀ y ∈ x.symbols, f.node.Nullable y

theorem Result.not_isIdle_fail {α : Type} {p : Position} : ¬ (fail : Result α).IsIdle p := by
  rintro ⟨_, _, h, _⟩
  cases h

theorem Result.not_isIdle_err {α : Type} {e : GrammarError} {p : Position} :
    ¬ (err e : Result α).IsIdle p := by
  rintro ⟨_, _, h, _⟩
  cases h

/-- One step: if expressions inside that match nothing have a rule of nullable symbols, so has what
is made of them. -/
theorem Derives.idleNullable {s : Setting τ} {R : Semantics τ} {J : Judgement τ}
    (hR : ∀ f p r, R f p r → r.IsAheadOf p) (hidle : ∀ f p r, R f p r → r.IsIdle p →
      f.node.MatchesEmpty) (d : Derives s R J) : J.IdleNullable := by
  induction d with
  | repeatEnd => exact fun _ => .inl ⟨_, rfl⟩
  | repeatIdle h ho => exact fun _ => .inr (hidle _ _ _ h ⟨_, _, rfl, ho⟩)
  | repeatOn h ho d ih =>
    intro hi
    -- a round that has moved on is no part of an idle repetition
    exact absurd (hi.of_map.of_ahead (hR _ _ _ h _ _ rfl) (d.isAhead hR)).1 ho
  | repeatError => exact fun hi => absurd hi Result.not_isIdle_err
  | one h => exact fun hi => .inr (hidle _ _ _ h hi)
  | optional => exact fun _ => .inl rfl
  | absent => exact fun _ => .inl rfl
  | zeroOrMore => exact fun _ => .inl rfl
  | oneOrMore _ hr ih =>
    intro hi
    rcases ih hi.of_map with ⟨q, hq⟩ | hempty
    · exact absurd hq (hr q)
    · exact .inr hempty
  | tooFew => exact fun hi => absurd hi Result.not_isIdle_fail
  | literal hk h =>
    intro hi
    rcases h.of_idle hi with hq | hocc
    · exact .quantifier hq
    · exact .emptyLiteral (by rw [hk, eq_empty_of_occurs hocc])
  | pattern hk h =>
    intro hi
    rcases h.of_idle hi with hq | hocc
    · exact .quantifier hq
    · cases hocc
  | reference hk hf _ ih =>
    intro hi
    rcases ih hi with hq | ⟨rule, hrule, hall⟩
    · exact .quantifier hq
    · exact .reference hk (Frame.leadsTo_of_resolve hf) hrule hall
  | unresolved => exact fun hi => absurd hi Result.not_isIdle_err
  | done => exact fun _ _ hy => absurd hy List.not_mem_nil
  | kept _ d d' ih ih' =>
    intro hi
    have hp := d.isAhead hR _ _ rfl
    obtain ⟨ho, hi'⟩ := hi.of_map.of_ahead hp (d'.isAhead hR)
    exact List.forall_mem_cons.2 ⟨ih ⟨_, _, rfl, ho⟩, ih' hi'⟩
  | givenBack hl _ _ _ ih' =>
    exact fun hi => List.forall_mem_cons.2 ⟨.lookahead (by rw [hl]; nofun), ih' hi.of_map⟩
  | passedOver hl _ _ _ ih' =>
    exact fun hi => List.forall_mem_cons.2 ⟨.lookahead (by rw [hl]; nofun), ih' hi.of_map⟩
  | failed => exact fun hi => absurd hi Result.not_isIdle_fail
  | broken => exact fun hi => absurd hi Result.not_isIdle_err
  | transformed _ _ ih =>
    rintro ⟨_, _, ⟨⟩, ho⟩
    exact ih ⟨_, _, rfl, ho⟩
  | plain _ _ _ ih =>
    rintro ⟨_, _, ⟨⟩, ho⟩
    exact ih ⟨_, _, rfl, ho⟩
  | ruleFails => exact fun hi => absurd hi Result.not_isIdle_fail
  | ruleError => exact fun hi => absurd hi Result.not_isIdle_err
  | noRule => exact fun hi => absurd hi Result.not_isIdle_fail
  | chosen _ _ ih => exact fun hi => ⟨_, List.mem_cons_self, ih hi⟩
  | next _ _ _ ih' =>
    intro hi
    obtain ⟨x, hx, hall⟩ := ih' hi
    exact ⟨x, List.mem_cons_of_mem _ hx, hall⟩

/-- An expression that matches nothing has a rule of nullable symbols. -/
theorem Matches.matchesEmpty {s : Setting τ} {f : Frame τ} {p : Position} {r : Result Value}
    (h : Matches s f p r) (hi : r.IsIdle p) : f.node.MatchesEmpty := by
  refine Matches.induct (P := fun f p r => r.IsIdle p → f.node.MatchesEmpty) ?_ ?_ h hi
  · exact fun _ _ _ _ _ hi => absurd hi Result.not_isIdle_err
  · exact fun _ _ _ _ d => d.idleNullable (fun _ _ _ h => h.1.isAheadOf) fun _ _ _ h => h.2

end OrderedChoice
