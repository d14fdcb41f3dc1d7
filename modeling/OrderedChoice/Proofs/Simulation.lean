import OrderedChoice.Proofs.Span
import OrderedChoice.Session

/-!
# Runs side by side

Two runs that match the same expressions do the same as long as nothing that they look at tells
them apart: the text that is left, whether a round of a repetition has moved on, what a reference
leads to, and what a transform makes of its arguments.  A `Simulation` says which places, which
active grammars and which logs of two runs go together, and that what goes together does so in these
respects.

Machines that go together stay so through every function of the engine, and the outcomes are the
same (`Simulation.attempts_matchExpression`).
-/

namespace OrderedChoice

variable {τ α β : Type}

/-- What goes together in a run in the setting `s` and one in the setting `s'`. -/
structure Simulation (s s' : Setting τ) where
  /-- Places in the texts of the runs. -/
  Place : Position → Position → Prop
  /-- The grammars that are active while the rules of an expression are tried. -/
  Scope : Expression τ → Grammar τ → Grammar τ → Prop
  /-- What has been logged. -/
  Log : List (Entry τ) → List (Entry τ) → Prop
  limit_eq : s.limit = s'.limit
  rest_eq {p p' : Position} : Place p p' → p.rest = p'.rest
  advance {p p' : Position} (n : Nat) : Place p p' → Place (p.advance n) (p'.advance n)
  offset_eq_iff {p p' q q' : Position} : Place p p' → Place q q' →
    (q.offset = p.offset ↔ q'.offset = p'.offset)
  name_eq {e : Expression τ} {g g' : Grammar τ} : Scope e g g' → g.name = g'.name
  /-- References lead to the same expression, or fail with the same error. -/
  resolve {e : Expression τ} {g g' : Grammar τ} {rule : Rule τ} {x : Symbol} {ref : Reference} :
    Scope e g g' → rule ∈ e.rules → x ∈ rule.symbols → x.kind = .reference ref →
    (∃ f h h', g.resolve ref e.name = .ok (h, f) ∧ g'.resolve ref e.name = .ok (h', f) ∧
      Scope f h h') ∨
    ∃ err, g.resolve ref e.name = .error err ∧ g'.resolve ref e.name = .error err
  /-- A report may tell two places. -/
  event {l l' : List (Entry τ)} {p p' q q' : Position} (ev : Nat → Nat → Event) : Log l l' →
    Place p p' → Place q q' →
    Log (.event (ev p.offset q.offset) :: l) (.event (ev p'.offset q'.offset) :: l')
  call {l l' : List (Entry τ)} {e : Expression τ} {g g' : Grammar τ} {rule : Rule τ}
    {p p' q q' : Position} (t : τ) (args : List Value) : Log l l' → Scope e g g' →
    rule ∈ e.rules → Place p p' → Place q q' →
    Log (.call ⟨t, args, g, e, rule, s.input, p, q⟩ :: l)
      (.call ⟨t, args, g', e, rule, s'.input, p', q'⟩ :: l')
  meaning_eq {e : Expression τ} {g g' : Grammar τ} {rule : Rule τ} {p p' q q' : Position} (t : τ)
    (args : List Value) : Scope e g g' → rule ∈ e.rules → rule.transform = some t → Place p p' →
    Place q q' → s.meaning t args ⟨g, e, rule, s.input, p, q⟩ =
      s'.meaning t args ⟨g', e, rule, s'.input, p', q'⟩

namespace Simulation

/-- Runs in one setting that are at the same places. -/
def inPlace (s : Setting τ) (Scope : Expression τ → Grammar τ → Grammar τ → Prop)
    (Log : List (Entry τ) → List (Entry τ) → Prop)
    (name_eq : ∀ {e g g'}, Scope e g g' → g.name = g'.name)
    (resolve : ∀ {e g g' rule x ref}, Scope e g g' → rule ∈ e.rules → x ∈ rule.symbols →
      x.kind = .reference ref →
      (∃ f h h', g.resolve ref e.name = .ok (h, f) ∧ g'.resolve ref e.name = .ok (h', f) ∧
        Scope f h h') ∨
      ∃ err, g.resolve ref e.name = .error err ∧ g'.resolve ref e.name = .error err)
    (event : ∀ {l l'} ev, Log l l' → Log (.event ev :: l) (.event ev :: l'))
    (call : ∀ {l l' e g g'} t args rule p q, Log l l' → Scope e g g' →
      Log (.call ⟨t, args, g, e, rule, s.input, p, q⟩ :: l)
        (.call ⟨t, args, g', e, rule, s.input, p, q⟩ :: l'))
    (meaning_eq : ∀ {e g g'} t args rule p q, Scope e g g' →
      s.meaning t args ⟨g, e, rule, s.input, p, q⟩ =
        s.meaning t args ⟨g', e, rule, s.input, p, q⟩) : Simulation s s where
  Place p p' := p = p'
  Scope := Scope
  Log := Log
  limit_eq := rfl
  rest_eq := congrArg _
  advance := by
    rintro _ _ _ rfl
    rfl
  offset_eq_iff := by
    rintro _ _ _ _ rfl rfl
    rfl
  name_eq := name_eq
  resolve := resolve
  event := by
    rintro _ _ _ _ _ _ ev hlog rfl rfl
    exact event _ hlog
  call := by
    rintro _ _ _ _ _ rule p _ q _ t args hlog hscope _ rfl rfl
    exact call t args rule p q hlog hscope
  meaning_eq := by
    rintro _ _ _ rule p _ q _ t args hscope _ _ rfl rfl
    exact meaning_eq t args rule p q hscope

variable {s s' : Setting τ} (R : Simulation s s')

/-- Machines that go together, which are at the same point of their runs. -/
structure Machines (m m' : Machine τ) : Prop where
  place : R.Place m.position m'.position
  depth_eq : m.depth = m'.depth
  focus_eq : m.focus = m'.focus
  log : R.Log m.log m'.log

/-- Attempts with the same outcome that leave machines which go together. -/
structure Attempts (r r' : Attempt τ α) : Prop where
  outcome_eq : r.outcome = r'.outcome
  machines : R.Machines r.machine r'.machine

/-- The matchers do the same with every expression. -/
def Matchers (call call' : Matcher τ) : Prop :=
  ∀ {e g g' m m'}, R.Scope e g g' → R.Machines m m' → R.Attempts (call g e m) (call' g' e m')

/-! ### Machines -/

section

variable {R} {m m' : Machine τ} {p p' q q' : Position}

theorem Machines.report (h : R.Machines m m') (hp : R.Place p p') (hq : R.Place q q')
    (ev : Nat → Nat → Event) :
    R.Machines (m.report (ev p.offset q.offset)) (m'.report (ev p'.offset q'.offset)) :=
  { h with log := R.event ev h.log hp hq }

theorem Machines.reportError (h : R.Machines m m') (err : GrammarError) :
    R.Machines (m.reportError err) (m'.reportError err) := by
  unfold Machine.reportError
  split
  · exact h.report h.place h.place fun _ _ => _
  · exact h

theorem Machines.moveTo (h : R.Machines m m') (hp : R.Place p p') :
    R.Machines (m.moveTo p) (m'.moveTo p') := { h with place := hp }

theorem Machines.atRule (h : R.Machines m m') (rule : Rule τ) :
    R.Machines (m.atRule rule) (m'.atRule rule) :=
  { h with focus_eq := congrArg (fun f : Focus τ => { f with rule := some rule }) h.focus_eq }

theorem Machines.atSymbol (h : R.Machines m m') (x : Symbol) :
    R.Machines (m.atSymbol x) (m'.atSymbol x) :=
  { h with focus_eq := congrArg (fun f : Focus τ => { f with symbol := some x }) h.focus_eq }

theorem Machines.enter (h : R.Machines m m') (e : Expression τ) :
    R.Machines (m.enter e) (m'.enter e) :=
  { h with
    depth_eq := congrArg (· + 1) h.depth_eq
    focus_eq := congrArg (fun f : Focus τ => { f with expression := some e }) h.focus_eq }

theorem Machines.leave (h : R.Machines m m') {f f' : Focus τ} (hf : f = f') :
    R.Machines (m.leave f) (m'.leave f') :=
  { h with
    depth_eq := congrArg (· - 1) h.depth_eq
    focus_eq := hf }

/-! ### Attempts -/

variable {r r' : Attempt τ α}

theorem Machines.attempts (h : R.Machines m m') (o : Outcome α) :
    R.Attempts (⟨o, m⟩ : Attempt τ α) ⟨o, m'⟩ := ⟨rfl, h⟩

theorem Attempts.exists_eq (h : R.Attempts r r') :
    ∃ o m m', r = ⟨o, m⟩ ∧ r' = ⟨o, m'⟩ ∧ R.Machines m m' := by
  obtain ⟨o, m⟩ := r
  obtain ⟨o', m'⟩ := r'
  obtain ⟨houtcome, hm⟩ := h
  obtain rfl : o = o' := houtcome
  exact ⟨o, m, m', rfl, rfl, hm⟩

theorem Attempts.andThen (h : R.Attempts r r') {f f' : α → Machine τ → Attempt τ β}
    (hf : ∀ a {m m'}, R.Machines m m' → R.Attempts (f a m) (f' a m')) :
    R.Attempts (r.andThen f) (r'.andThen f') := by
  obtain ⟨o, m, m', rfl, rfl, hm⟩ := h.exists_eq
  cases o with
  | matched a => exact hf a hm
  | mismatch => exact hm.attempts _
  | error x => exact hm.attempts _
  | endless => exact hm.attempts _

theorem Attempts.orElse (h : R.Attempts r r') {f f' : Machine τ → Attempt τ α}
    (hf : ∀ {m m'}, R.Machines m m' → R.Attempts (f m) (f' m')) :
    R.Attempts (r.orElse f) (r'.orElse f') := by
  obtain ⟨o, m, m', rfl, rfl, hm⟩ := h.exists_eq
  cases o with
  | mismatch => exact hf hm
  | matched a => exact hm.attempts _
  | error x => exact hm.attempts _
  | endless => exact hm.attempts _

end

/-! ### The engine -/

variable {R} {call call' : Matcher τ} {e : Expression τ} {g g' : Grammar τ} {rule : Rule τ}
  {m m' : Machine τ}

/-- The text between places that go together is the same. -/
theorem textTo_eq {p p' q q' : Position} (hp : R.Place p p') (hq : R.Place q q') :
    p.textTo q = p'.textTo q' := by
  simp only [Position.textTo, R.rest_eq hp, R.rest_eq hq]

theorem attempts_matchTerminal (t : Terminal) (q : Quantifier) (h : R.Machines m m') :
    R.Attempts (matchTerminal t q m) (matchTerminal t q m') := by
  simp only [matchTerminal, R.rest_eq h.place]
  split
  · exact (h.moveTo (R.advance _ h.place)).attempts _
  · exact h.attempts _

section

variable {one one' : Machine τ → Attempt τ Value}
  (hone : ∀ {m m'}, R.Machines m m' → R.Attempts (one m) (one' m'))
include hone

theorem attempts_matchRepeatedly (bound : Nat) (h : R.Machines m m') :
    R.Attempts (matchRepeatedly one bound m) (matchRepeatedly one' bound m') := by
  induction bound generalizing m m' with
  | zero => exact h.attempts _
  | succ bound ih =>
    obtain ⟨o, k, k', hr, hr', hk⟩ := (hone h).exists_eq
    unfold matchRepeatedly
    rw [hr, hr']
    cases o with
    | matched v =>
      -- both runs go on, or this is the last round of both
      have hmoves : k.cursor = m.cursor ↔ k'.cursor = m'.cursor :=
        R.offset_eq_iff h.place hk.place
      simp only [hmoves]
      split
      · exact hk.attempts _
      · exact (ih hk).andThen fun vs _ _ h' => h'.attempts _
    | mismatch => exact hk.attempts _
    | error x => exact hk.attempts _
    | endless => exact hk.attempts _

theorem attempts_matchQuantified (q : Quantifier) (h : R.Machines m m') :
    R.Attempts (matchQuantified one q m) (matchQuantified one' q m') := by
  have hlist : ∀ allowed : Bool, R.Attempts
      ((matchRepeatedly one (m.position.rest.length + 1) m).andThen fun vs k =>
        if vs.isEmpty && !allowed then ⟨.mismatch, k.moveTo m.position⟩
        else ⟨.matched (Value.list vs), k⟩)
      ((matchRepeatedly one' (m'.position.rest.length + 1) m').andThen fun vs k =>
        if vs.isEmpty && !allowed then ⟨.mismatch, k.moveTo m'.position⟩
        else ⟨.matched (Value.list vs), k⟩) := by
    intro allowed
    rw [R.rest_eq h.place]
    refine (attempts_matchRepeatedly hone _ h).andThen fun vs k k' hk => ?_
    split
    · exact (hk.moveTo h.place).attempts _
    · exact hk.attempts _
  cases q with
  | one => exact hone h
  | optional => exact (hone h).orElse fun hk => hk.attempts _
  | zeroOrMore => exact hlist _
  | oneOrMore => exact hlist _

end

section

variable (hcall : R.Matchers call call') (hg : R.Scope e g g')
include hcall hg

theorem attempts_matchSymbol {x : Symbol} (hrule : rule ∈ e.rules) (hx : x ∈ rule.symbols)
    (h : R.Machines m m') :
    R.Attempts (matchSymbol call g e x m) (matchSymbol call' g' e x m') := by
  have hkind : R.Attempts (matchKind call g e x m) (matchKind call' g' e x m') := by
    unfold matchKind
    cases hk : x.kind with
    | literal text => exact attempts_matchTerminal _ _ h
    | pattern p => exact attempts_matchTerminal _ _ h
    | reference ref =>
      rcases R.resolve hg hrule hx hk with ⟨f, i, i', hi, hi', hf⟩ | ⟨err, hi, hi'⟩
      · simp only [hi, hi']
        exact attempts_matchQuantified (fun h' => hcall hf h') _ h
      · simp only [hi, hi']
        exact (h.reportError err).attempts _
  obtain ⟨o, k, k', hr, hr', hk⟩ := hkind.exists_eq
  unfold matchSymbol
  rw [hr, hr']
  have hreport : ∀ matched, R.Machines (k.report (.symbolTried x matched k.cursor))
      (k'.report (.symbolTried x matched k'.cursor)) := fun matched =>
    hk.report hk.place hk.place fun cursor _ => .symbolTried x matched cursor
  cases o with
  | matched v => exact (hreport true).attempts _
  | mismatch => exact (hreport false).attempts _
  | error x => exact hk.attempts _
  | endless => exact hk.attempts _

theorem attempts_matchSymbols (hrule : rule ∈ e.rules) {start start' : Position}
    (hstart : R.Place start start') (xs : List Symbol) (hxs : ∀ x ∈ xs, x ∈ rule.symbols)
    (h : R.Machines m m') : R.Attempts (matchSymbols call g e rule start xs m)
      (matchSymbols call' g' e rule start' xs m') := by
  induction xs generalizing m m' with
  | nil => exact h.attempts _
  | cons x xs ih =>
    have hx := attempts_matchSymbol hcall hg hrule (hxs x List.mem_cons_self) (h.atSymbol x)
    have hlook : R.Attempts
        (applyLookahead x.lookahead m.position (matchSymbol call g e x (m.atSymbol x)))
        (applyLookahead x.lookahead m'.position (matchSymbol call' g' e x (m'.atSymbol x))) := by
      cases x.lookahead with
      | consume => exact hx
      | assert => exact hx.andThen fun _ _ _ hk => (hk.moveTo h.place).attempts _
      | lenient => exact hx.orElse fun hk => (hk.moveTo h.place).attempts _
    have hgive : ∀ {k k'}, R.Machines k k' →
        R.Machines (giveUp e rule start x k) (giveUp e rule start' x k') := fun hk =>
      (hk.report hk.place hstart fun cursor start =>
        .backtrack e.name rule.symbols x cursor start).moveTo hstart
    refine (hlook.orElse fun hk => (hgive hk).attempts _).andThen fun v k k' hk => ?_
    exact (ih (fun y hy => hxs y (List.mem_cons_of_mem x hy)) hk).andThen
      fun vs _ _ hk' => hk'.attempts _

theorem attempts_matchRule (hrule : rule ∈ e.rules) (h : R.Machines m m') :
    R.Attempts (matchRule s call g e rule m) (matchRule s' call' g' e rule m') := by
  refine (attempts_matchSymbols hcall hg hrule h.place rule.symbols (fun _ hx => hx)
    (h.atRule rule)).andThen fun args k k' hk => ⟨?_, ?_⟩
  · simp only [finishRule, ruleValue]
    cases ht : rule.transform with
    | some t => exact congrArg _ (R.meaning_eq t args hg hrule ht h.place hk.place)
    | none => simp only [Context.matchedText, textTo_eq h.place hk.place]
  · refine Machines.report (p := m.position) (q := k.position) ?_ h.place hk.place
      fun start stop => .ruleMatched e.name rule.symbols start stop
    unfold recordTransform
    cases rule.transform with
    | some t => exact { hk with log := R.call t args hk.log hg hrule h.place hk.place }
    | none => exact hk

theorem attempts_matchRules (rules : List (Rule τ)) (hrules : ∀ rule ∈ rules, rule ∈ e.rules)
    (h : R.Machines m m') :
    R.Attempts (matchRules s call g e rules m) (matchRules s' call' g' e rules m') := by
  induction rules generalizing m m' with
  | nil => exact h.attempts _
  | cons rule rules ih =>
    exact (attempts_matchRule hcall hg (hrules rule List.mem_cons_self) h).orElse fun hk =>
      ih (fun x hx => hrules x (List.mem_cons_of_mem rule hx)) hk

theorem attempts_matchInside (h : R.Machines m m') :
    R.Attempts (matchInside s call g e m) (matchInside s' call' g' e m') := by
  have hrules := attempts_matchRules hcall hg e.rules (fun _ hx => hx) (h.enter e)
  let missed (g : Grammar τ) (k : Machine τ) : Attempt τ Value :=
    ⟨.mismatch, k.report (.noRuleMatched e.name g.name k.cursor)⟩
  have hnone : R.Attempts ((matchRules s call g e e.rules (m.enter e)).orElse (missed g))
      ((matchRules s' call' g' e e.rules (m'.enter e)).orElse (missed g')) := by
    refine hrules.orElse fun {k k'} hk => ?_
    simp only [missed, R.name_eq hg]
    exact (hk.report hk.place hk.place fun cursor _ =>
      .noRuleMatched e.name g'.name cursor).attempts _
  exact ⟨hnone.outcome_eq, hnone.machines.leave h.focus_eq⟩

end

/-- **What goes together stays together.** -/
theorem attempts_matchExpression (R : Simulation s s') (bound : Nat) :
    R.Matchers (matchExpression s bound) (matchExpression s' bound) := by
  induction bound with
  | zero => exact fun _ h => h.attempts _
  | succ bound ih =>
    intro e g g' m m' hg h
    unfold matchExpression
    rw [R.limit_eq, h.depth_eq]
    split
    · exact attempts_matchInside ih hg h
    · split
      · refine Machines.attempts ?_ _
        exact ⟨h.place, rfl, h.focus_eq, h.log⟩
      · exact attempts_matchInside ih hg h

/-- What a configuration makes of input that is left over, where places that go together have the
same offset. -/
theorem attempts_checkRemainder {t t' : Session τ} (hconfig : t.config = t'.config)
    (hplace : ∀ {p p'}, R.Place p p' → p.offset = p'.offset) (length : Nat)
    {r r' : Attempt τ Value} (h : R.Attempts r r') :
    R.Attempts (t.checkRemainder length r) (t'.checkRemainder length r') := by
  refine h.andThen fun v k k' hk => ?_
  have hcursor : k.cursor = k'.cursor := hplace hk.place
  have hreport : R.Machines (k.report (.remainderRejected k.cursor length))
      (k'.report (.remainderRejected k'.cursor length)) :=
    hk.report hk.place hk.place fun cursor _ => .remainderRejected cursor length
  rw [hcursor] at hreport ⊢
  rw [hconfig]
  split
  · exact hreport.attempts _
  · exact hk.attempts _

end Simulation

end OrderedChoice
