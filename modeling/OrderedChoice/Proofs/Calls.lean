import OrderedChoice.Proofs.Semantics.Adequacy

/-!
# Transforms are applied to what their rules have matched

A parse logs every application of a transform, those of attempts included that are given up later.
`c.IsJustified s g` says that the logged application `c` is one of a rule of the grammar `g` that
has a transform, and that its arguments are the values of the symbols of that rule.

* `Machine.CallsAre` is the invariant: all applications logged so far are of some kind.  Whatever
  the kind, only `matchRule` adds to them (`callsAre_matchRule`);
* `isJustified_of_mem_callsOf`: every application in the log of a parse is justified.
-/

namespace OrderedChoice

variable {τ : Type}

/-- An application of a transform to the values of a rule of the grammar, which has matched. -/
structure Call.IsJustified (s : Setting τ) (root : Grammar τ) (c : Call τ) : Prop where
  transform_eq : c.context.rule.transform = some c.transform
  isPartOf : c.context.grammar.IsPartOf root
  input_eq : c.context.input = s.input
  holds : c.context.grammar.Holds c.context.expression
  rule_mem : c.context.rule ∈ c.context.expression.rules
  derives : ∃ depth, Derives s (Matches s)
    (.symbols (s.frame depth c.context.grammar c.context.expression) c.context.rule.symbols
      c.context.start (.ok c.args c.context.stop))

theorem Call.IsJustified.expression_mem {s : Setting τ} {root : Grammar τ} {c : Call τ}
    (h : c.IsJustified s root) : c.context.expression ∈ c.context.grammar.expressions :=
  h.holds.mem

/-! ### What leaves the applications alone -/

/-- All applications of transforms that have been logged are of a kind. -/
def Machine.CallsAre (P : Call τ → Prop) (m : Machine τ) : Prop := ∀ c, .call c ∈ m.log → P c

namespace Machine

variable {P : Call τ → Prop} {m : Machine τ}

theorem CallsAre.report (h : m.CallsAre P) (e : Event) : (m.report e).CallsAre P := by
  intro c hc
  rcases List.mem_cons.1 hc with hc | hc
  · cases hc
  · exact h c hc

theorem CallsAre.reportError (h : m.CallsAre P) (e : GrammarError) :
    (m.reportError e).CallsAre P := by
  unfold Machine.reportError
  split
  · exact h.report _
  · exact h

theorem CallsAre.recordCall (h : m.CallsAre P) {c : Call τ} (hc : P c) :
    (m.recordCall c).CallsAre P := by
  intro c' hc'
  rcases List.mem_cons.1 hc' with hc' | hc'
  · cases hc'
    exact hc
  · exact h c' hc'

end Machine

namespace Attempt

variable {P : Call τ → Prop} {α β : Type} {r : Attempt τ α}

theorem callsAre_andThen (h : r.machine.CallsAre P) {f : α → Machine τ → Attempt τ β}
    (hf : ∀ a m, r = ⟨.matched a, m⟩ → m.CallsAre P → (f a m).machine.CallsAre P) :
    (r.andThen f).machine.CallsAre P := by
  obtain ⟨o, m⟩ := r
  cases o with
  | matched a => exact hf a m rfl h
  | mismatch => exact h
  | error e => exact h
  | endless => exact h

theorem callsAre_orElse (h : r.machine.CallsAre P) {f : Machine τ → Attempt τ α}
    (hf : ∀ m, r = ⟨.mismatch, m⟩ → m.CallsAre P → (f m).machine.CallsAre P) :
    (r.orElse f).machine.CallsAre P := by
  obtain ⟨o, m⟩ := r
  cases o with
  | matched a => exact h
  | mismatch => exact hf m rfl h
  | error e => exact h
  | endless => exact h

end Attempt

section

variable {P : Call τ → Prop} {one : Machine τ → Attempt τ Value} {call : Matcher τ}
  {root g : Grammar τ} {e : Expression τ} {m : Machine τ}

theorem callsAre_matchTerminal (t : Terminal) (q : Quantifier) (h : m.CallsAre P) :
    (matchTerminal t q m).machine.CallsAre P := by
  unfold matchTerminal
  split <;> exact h

section

variable (hone : ∀ m, m.CallsAre P → (one m).machine.CallsAre P)
include hone

theorem callsAre_matchRepeatedly (bound : Nat) (h : m.CallsAre P) :
    (matchRepeatedly one bound m).machine.CallsAre P := by
  induction bound generalizing m with
  | zero => exact h
  | succ bound ih =>
    have hm := hone m h
    unfold matchRepeatedly
    generalize one m = r at hm
    obtain ⟨o, m'⟩ := r
    cases o with
    | matched v =>
      dsimp only
      split
      · exact hm
      · exact Attempt.callsAre_andThen (ih hm) fun _ _ _ h => h
    | mismatch => exact hm
    | error x => exact hm
    | endless => exact hm

theorem callsAre_matchQuantified (q : Quantifier) (h : m.CallsAre P) :
    (matchQuantified one q m).machine.CallsAre P := by
  have hlist : ∀ allowed : Bool,
      ((matchRepeatedly one (m.position.rest.length + 1) m).andThen fun vs m' =>
        if vs.isEmpty && !allowed then ⟨.mismatch, m'.moveTo m.position⟩
        else ⟨.matched (Value.list vs), m'⟩).machine.CallsAre P := by
    intro allowed
    refine Attempt.callsAre_andThen (callsAre_matchRepeatedly hone _ h) fun vs m' _ h' => ?_
    split
    · exact h'
    · exact h'
  cases q with
  | one => exact hone m h
  | optional => exact Attempt.callsAre_orElse (hone m h) fun _ _ h' => h'
  | zeroOrMore => exact hlist _
  | oneOrMore => exact hlist _

end

section

variable (hcall : ∀ g e m, g.IsPartOf root → g.Holds e → m.CallsAre P →
  (call g e m).machine.CallsAre P) (hg : g.IsPartOf root)
include hcall hg

theorem callsAre_matchSymbol (x : Symbol) (h : m.CallsAre P) :
    (matchSymbol call g e x m).machine.CallsAre P := by
  have hkind : (matchKind call g e x m).machine.CallsAre P := by
    unfold matchKind
    split
    · exact callsAre_matchTerminal _ _ h
    · exact callsAre_matchTerminal _ _ h
    · split
      · rename_i g' e' hr
        exact callsAre_matchQuantified (fun m => hcall g' e' m (hg.of_resolve hr).1
          ⟨_, Grammar.expression?_of_resolve hr⟩) _ h
      · exact h.reportError _
  unfold matchSymbol
  generalize matchKind call g e x m = r at hkind
  obtain ⟨o, m'⟩ := r
  cases o with
  | matched v => exact hkind.report _
  | mismatch => exact hkind.report _
  | error x => exact hkind
  | endless => exact hkind

theorem callsAre_matchSymbols (rule : Rule τ) (start : Position) (xs : List Symbol)
    (h : m.CallsAre P) : (matchSymbols call g e rule start xs m).machine.CallsAre P := by
  induction xs generalizing m with
  | nil => exact h
  | cons x xs ih =>
    have hx := callsAre_matchSymbol (e := e) hcall hg x (m := m.atSymbol x) h
    have hlook : (applyLookahead x.lookahead m.position
        (matchSymbol call g e x (m.atSymbol x))).machine.CallsAre P := by
      cases x.lookahead with
      | consume => exact hx
      | assert => exact Attempt.callsAre_andThen hx fun _ _ _ h' => h'
      | lenient => exact Attempt.callsAre_orElse hx fun _ _ h' => h'
    refine Attempt.callsAre_andThen (Attempt.callsAre_orElse hlook ?_) fun v m' _ h' => ?_
    · exact fun m' _ h' => h'.report _
    · exact Attempt.callsAre_andThen (ih h') fun _ _ _ h'' => h''

/-- A rule that matches adds the application of its transform, if it has one. -/
theorem callsAre_matchRule (s : Setting τ) (rule : Rule τ)
    (hP : ∀ t args m', rule.transform = some t →
      matchSymbols call g e rule m.position rule.symbols (m.atRule rule) = ⟨.matched args, m'⟩ →
      P ⟨t, args, ⟨g, e, rule, s.input, m.position, m'.position⟩⟩) (h : m.CallsAre P) :
    (matchRule s call g e rule m).machine.CallsAre P := by
  refine Attempt.callsAre_andThen
    (callsAre_matchSymbols hcall hg rule m.position rule.symbols (m := m.atRule rule) h)
    fun args m' hm h' => ?_
  refine Machine.CallsAre.report ?_ _
  cases ht : rule.transform with
  | some t =>
    simp only [recordTransform, ht]
    exact h'.recordCall (hP t args m' ht hm)
  | none =>
    simp only [recordTransform, ht]
    exact h'

end

end

/-! ### Justified applications -/

section

variable {s : Setting τ} {call : Matcher τ} {root g : Grammar τ} {e : Expression τ} {d : Nat}
  (hcall : ∀ g e m, g.IsPartOf root → g.Holds e →
    m.CallsAre (Call.IsJustified s root) →
    (call g e m).machine.CallsAre (Call.IsJustified s root))
  (hfollows : call.Follows s True (Matches s) (d + 1)) (hg : g.IsPartOf root)
  (he : g.Holds e)
include hcall hfollows hg he

theorem isJustified_matchRules (rules : List (Rule τ)) (hrules : ∀ x ∈ rules, x ∈ e.rules)
    (m : Machine τ) (hd : m.depth = d + 1) (h : m.CallsAre (Call.IsJustified s root)) :
    (matchRules s call g e rules m).machine.CallsAre (Call.IsJustified s root) := by
  induction rules generalizing m with
  | nil => exact h
  | cons rule rules ih =>
    have hrule : (matchRule s call g e rule m).machine.CallsAre (Call.IsJustified s root) := by
      refine callsAre_matchRule hcall hg s rule (fun t args m' ht hm => ?_) h
      -- the arguments are what the symbols have come to
      have hmeets := meets_matchSymbols (g := g) (e := e) hfollows rule m.position rule.symbols
        (m.atRule rule) hd
      rw [hm] at hmeets
      exact ⟨ht, hg, rfl, he, hrules rule List.mem_cons_self, _, hmeets.of_result? rfl⟩
    refine Attempt.callsAre_orElse hrule fun m' hm h' => ?_
    -- the next rule is tried at the same depth
    have hx := exact_matchRule (g := g) (e := e) s hfollows.exact rule m
    rw [hm] at hx
    exact ih (fun x hx => hrules x (List.mem_cons_of_mem rule hx)) m' (hx.2.trans hd) h'

theorem isJustified_matchInside (m : Machine τ) (hd : m.depth = d)
    (h : m.CallsAre (Call.IsJustified s root)) :
    (matchInside s call g e m).machine.CallsAre (Call.IsJustified s root) := by
  have hrules := isJustified_matchRules hcall hfollows hg he e.rules (fun _ hx => hx) (m.enter e)
    (congrArg (· + 1) hd) h
  have hnone := Attempt.callsAre_orElse hrules (f := fun m' =>
    ⟨.mismatch, m'.report (.noRuleMatched e.name g.name m'.cursor)⟩) fun m' _ h' => h'.report _
  exact hnone

end

theorem isJustified_matchExpression (s : Setting τ) (root : Grammar τ) (bound : Nat)
    (g : Grammar τ) (e : Expression τ) (m : Machine τ) (hg : g.IsPartOf root)
    (he : g.Holds e) (h : m.CallsAre (Call.IsJustified s root)) :
    (matchExpression s bound g e m).machine.CallsAre (Call.IsJustified s root) := by
  induction bound generalizing g e m with
  | zero => exact h
  | succ bound ih =>
    have hfollows := follows_matchExpression s bound (m.depth + 1)
    unfold matchExpression
    split
    · exact isJustified_matchInside ih hfollows hg he m rfl h
    · split
      · exact h
      · exact isJustified_matchInside ih hfollows hg he m rfl h

theorem Session.isJustified_matchRoot (s : Session τ) (text : List Char) {m : Machine τ}
    (h : m.CallsAre (Call.IsJustified (s.setting text) s.grammar)) :
    (s.matchRoot text m).machine.CallsAre (Call.IsJustified (s.setting text) s.grammar) := by
  unfold matchRoot
  split
  · exact h
  · rename_i e he
    refine Attempt.callsAre_andThen (isJustified_matchExpression _ _ _ _ e m .self
      (Grammar.holds_of_root? he) h) fun v m' _ h' => ?_
    split
    · exact h'.report _
    · exact h'

theorem mem_callsOf {log : List (Entry τ)} {c : Call τ} : c ∈ callsOf log ↔ .call c ∈ log := by
  unfold callsOf
  rw [List.mem_filterMap]
  constructor
  · rintro ⟨x, hx, hc⟩
    cases x with
    | event e => cases hc
    | call c' =>
      cases hc
      exact List.mem_reverse.1 hx
  · exact fun h => ⟨.call c, List.mem_reverse.2 h, rfl⟩

/-- **Every application of a transform is justified**, in attempts that were given up as well. -/
theorem isJustified_of_mem_callsOf (s : Session τ) (input : String) {c : Call τ}
    (hc : c ∈ callsOf (s.parse input).1.log) :
    c.IsJustified (s.setting input.toList) s.grammar := by
  have hstart : (Machine.start (τ := τ) input.toList).CallsAre
      (Call.IsJustified (s.setting input.toList) s.grammar) := nofun
  exact ((s.isJustified_matchRoot input.toList (hstart.report _)).report _) c (mem_callsOf.1 hc)

end OrderedChoice
