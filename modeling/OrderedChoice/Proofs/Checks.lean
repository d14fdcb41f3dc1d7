import OrderedChoice.Proofs.Depth.Limit

/-!
# Where a parse breaks off

There are two things that can end a parse in an error once it has a root to start from: an
expression is entered that nests too deeply, or a reference leads nowhere.  A `Check` is a point of
a run at which one of them is looked at, and `checks s bound q` lists the checks of a run in order.

`Attempt.Checked` says that a list is that of the checks of an attempt.  None of them fails but the
last, and if that fails then the attempt breaks off right there, with the error and with what had
been logged until then.  The lemmas `checked_…` show it of the functions of the engine one by one,
from `Checked.andThen` and `Checked.orElse`.

* `checked_answer`: the checks of a run are those of `checks`;
* `Session.parse_breaks_off`: the first check that fails is the end of a parse.
-/

namespace OrderedChoice

variable {τ α β : Type}

/-! ### Checks -/

/-- A point of a run at which it may break off. -/
inductive Check (τ : Type) where
  /-- An expression is entered, if it does not nest too deeply. -/
  | entry (q : Request τ)
  /-- A reference in a rule of an expression is looked up. -/
  | lookUp (g : Grammar τ) (e : Expression τ) (ref : Reference) (m : Machine τ)

namespace Check

/-- The state of the run at a check. -/
def machine : Check τ → Machine τ
  | entry q => q.machine
  | lookUp _ _ _ m => m

/-- The error of a check that fails. -/
def error? (s : Setting τ) : Check τ → Option GrammarError
  | entry q =>
    match s.limit with
    | some limit =>
      if limit < q.machine.depth + 1 then some (.depthExceeded limit q.expression.name) else none
    | none => none
  | lookUp g e ref _ =>
    match g.resolve ref e.name with
    | .ok _ => none
    | .error x => some x

/-- The run has broken off at the check, and has only reported why. -/
def halt (c : Check τ) (x : GrammarError) : Halt τ :=
  ⟨some x, c.machine.position, (c.machine.reportError x).log⟩

end Check

/-- The checks of a symbol: its reference is looked up, and then the expression that it leads to is
asked for, each time with the checks that this takes. -/
def checksOfSymbol (inner : Request τ → List (Check τ)) (call : Matcher τ) (g : Grammar τ)
    (e : Expression τ) (x : Symbol) (m : Machine τ) : List (Check τ) :=
  match x.kind with
  | .reference ref => .lookUp g e ref m :: (requestsOfSymbol call g e x m).flatMap inner
  | _ => []

/-- The checks of the symbols of a rule, up to the one at which it is given up. -/
def checksOfSymbols (inner : Request τ → List (Check τ)) (call : Matcher τ) (g : Grammar τ)
    (e : Expression τ) : List Symbol → Machine τ → List (Check τ)
  | [], _ => []
  | x :: xs, m =>
    checksOfSymbol inner call g e x (m.atSymbol x) ++
      (applyLookahead x.lookahead m.position (matchSymbol call g e x (m.atSymbol x))).ifMatched
        fun _ m' => checksOfSymbols inner call g e xs m'

/-- The checks of rules, up to the first that matches. -/
def checksOfRules (s : Setting τ) (inner : Request τ → List (Check τ)) (call : Matcher τ)
    (g : Grammar τ) (e : Expression τ) : List (Rule τ) → Machine τ → List (Check τ)
  | [], _ => []
  | rule :: rules, m =>
    checksOfSymbols inner call g e rule.symbols (m.atRule rule) ++
      (matchRule s call g e rule m).ifMismatch fun m' => checksOfRules s inner call g e rules m'

/-- The checks that are made to answer a request. -/
def checks (s : Setting τ) : Nat → Request τ → List (Check τ)
  | 0, _ => []
  | bound + 1, q =>
    .entry q ::
      if s.refuses q.machine then []
      else checksOfRules s (checks s bound) (matchExpression s bound) q.grammar q.expression
        q.expression.rules (q.machine.enter q.expression)

/-! ### Reports of failures -/

/-- The event is the report of a reference that leads nowhere. -/
def Event.isUnresolved : Event → Bool
  | unresolvedGrammar .. | unresolvedExpression .. => true
  | _ => false

/-- No failure has been reported so far. -/
def Machine.IsQuiet (m : Machine τ) : Prop := ∀ ev, .event ev ∈ m.log → ev.isUnresolved = false

theorem Machine.IsQuiet.report {m : Machine τ} (h : m.IsQuiet) {ev : Event}
    (hev : ev.isUnresolved = false) : (m.report ev).IsQuiet := by
  intro ev' hmem
  rcases List.mem_cons.1 hmem with hmem | hmem
  · cases hmem
    exact hev
  · exact h ev' hmem

theorem Machine.IsQuiet.recordTransform {m : Machine τ} (h : m.IsQuiet) (args : List Value)
    (c : Context τ) : (recordTransform args c m).IsQuiet := by
  unfold OrderedChoice.recordTransform
  split
  · intro ev hmem
    rcases List.mem_cons.1 hmem with hmem | hmem
    · cases hmem
    · exact h ev hmem
  · exact h

theorem Machine.event_mem_reportError {m : Machine τ} {x : GrammarError} {ev : Event}
    (h : .event ev ∈ (m.reportError x).log) : .event ev ∈ m.log ∨ x.event? = some ev := by
  unfold reportError at h
  cases hx : x.event? with
  | none => exact .inl (by simpa [hx] using h)
  | some ev' =>
    simp only [hx] at h
    rcases List.mem_cons.1 h with h | h
    · cases h
      exact .inr rfl
    · exact .inl h

/-- A report of a failure tells the error. -/
theorem GrammarError.eq_of_event? {x x' : GrammarError} {ev : Event} (h : x.event? = some ev)
    (h' : x'.event? = some ev) : x = x' := by
  cases x <;> cases h <;> cases x' <;> cases h' <;> rfl

theorem GrammarError.isUnresolved_of_event? {x : GrammarError} {ev : Event}
    (h : x.event? = some ev) : ev.isUnresolved = true := by
  cases x <;> cases h <;> rfl

/-! ### An attempt and its checks -/

namespace Attempt

variable {r : Attempt τ α}

theorem ifMatched_nil : (r.ifMatched fun _ _ => ([] : List β)) = [] := by
  obtain ⟨o, m⟩ := r
  cases o <;> rfl

theorem ifMismatch_nil : (r.ifMismatch fun _ => ([] : List β)) = [] := by
  obtain ⟨o, m⟩ := r
  cases o <;> rfl

theorem mem_ifMatched {f : α → Machine τ → List β} {b : β} :
    b ∈ r.ifMatched f ↔ ∃ a m, r = ⟨.matched a, m⟩ ∧ b ∈ f a m := by
  obtain ⟨o, m⟩ := r
  cases o <;> simp [ifMatched]

theorem mem_ifMismatch {f : Machine τ → List β} {b : β} :
    b ∈ r.ifMismatch f ↔ ∃ m, r = ⟨.mismatch, m⟩ ∧ b ∈ f m := by
  obtain ⟨o, m⟩ := r
  cases o <;> simp [ifMismatch]

/-- What a rule does when a symbol fails is of no account for what follows if it matches. -/
theorem ifMatched_orElse_mismatch (r : Attempt τ α) (f : Machine τ → Machine τ)
    (k : α → Machine τ → List β) :
    (r.orElse fun m => ⟨.mismatch, f m⟩).ifMatched k = r.ifMatched k := by
  obtain ⟨o, m⟩ := r
  cases o <;> rfl

/-- An attempt that has broken off is not followed by anything. -/
theorem ifMatched_of_halt? {h : Halt τ} (hr : r.halt? = some h) (f : α → Machine τ → List β) :
    r.ifMatched f = [] := by
  obtain ⟨o, m⟩ := r
  cases o with
  | matched a => cases hr
  | mismatch | error | endless => rfl

theorem ifMismatch_of_halt? {h : Halt τ} (hr : r.halt? = some h) (f : Machine τ → List β) :
    r.ifMismatch f = [] := by
  obtain ⟨o, m⟩ := r
  cases o with
  | mismatch => cases hr
  | matched | error | endless => rfl

end Attempt

/-- The checks of an attempt are those of the list: either all of them pass and the attempt does not
end in an error, or the last one fails and the attempt breaks off there. -/
inductive Attempt.Checked (s : Setting τ) : List (Check τ) → Attempt τ α → Prop
  | passed {cs : List (Check τ)} {r : Attempt τ α} : (∀ c ∈ cs, c.error? s = none) →
      (∀ x, r.outcome ≠ .error x) → r.machine.IsQuiet → Checked s cs r
  | failed {cs : List (Check τ)} {c : Check τ} {x : GrammarError} {r : Attempt τ α} :
      (∀ c ∈ cs, c.error? s = none) → c.error? s = some x → c.machine.IsQuiet →
      r.halt? = some (c.halt x) → Checked s (cs ++ [c]) r

namespace Attempt.Checked

variable {s : Setting τ} {cs : List (Check τ)} {r : Attempt τ α}

/-- A match without any check. -/
theorem of_matched {a : α} {m : Machine τ} (h : m.IsQuiet) :
    Checked s [] (⟨.matched a, m⟩ : Attempt τ α) := .passed (by simp) (by simp) h

/-- A mismatch without any check. -/
theorem of_mismatch {m : Machine τ} (h : m.IsQuiet) :
    Checked s [] (⟨.mismatch, m⟩ : Attempt τ α) := .passed (by simp) (by simp) h

/-- The first check fails. -/
theorem of_failure {c : Check τ} {x : GrammarError} (hx : c.error? s = some x)
    (hq : c.machine.IsQuiet) (hr : r.halt? = some (c.halt x)) : Checked s [c] r := by
  have h : Checked s ([] ++ [c]) r := .failed (by simp) hx hq hr
  exact h

/-- Breaking off because expressions nest without end is not the failure of a check. -/
theorem of_halt? {h : Halt τ} (hr : r.halt? = some h) (hx : h.error? = none)
    (hq : ∀ ev, .event ev ∈ h.log → ev.isUnresolved = false) : Checked s [] r := by
  obtain ⟨o, m⟩ := r
  cases o with
  | matched a => cases hr
  | mismatch => cases hr
  | error x =>
    cases hr
    cases hx
  | endless =>
    cases hr
    exact .passed (by simp) (by simp) hq

/-- Checks that pass before those of an attempt. -/
theorem prepend {cs' : List (Check τ)} (hcs' : ∀ c ∈ cs', c.error? s = none)
    (h : Checked s cs r) : Checked s (cs' ++ cs) r := by
  have hall : ∀ {cs : List (Check τ)}, (∀ c ∈ cs, c.error? s = none) →
      ∀ c ∈ cs' ++ cs, c.error? s = none := fun h c hc =>
    (List.mem_append.1 hc).elim (hcs' c) (h c)
  cases h with
  | passed hcs hne hq => exact .passed (hall hcs) hne hq
  | failed hcs hx hq hr =>
    rw [← List.append_assoc]
    exact .failed (hall hcs) hx hq hr

/-- The checks of an attempt, and of what is made of it unless it has broken off. -/
theorem bind (h : Checked s cs r) {f : Attempt τ α → Attempt τ β} {rest : List (Check τ)}
    (hf : PassesHalt f) (hnone : ∀ k, r.halt? = some k → rest = [])
    (hmatched : ∀ a m, r = ⟨.matched a, m⟩ → m.IsQuiet → Checked s rest (f ⟨.matched a, m⟩))
    (hmismatch : ∀ m, r = ⟨.mismatch, m⟩ → m.IsQuiet → Checked s rest (f ⟨.mismatch, m⟩)) :
    Checked s (cs ++ rest) (f r) := by
  cases h with
  | passed hcs hne hq =>
    refine prepend hcs ?_
    obtain ⟨o, m⟩ := r
    cases o with
    | matched a => exact hmatched a m rfl hq
    | mismatch => exact hmismatch m rfl hq
    | error x => exact absurd rfl (hne x)
    | endless =>
      rw [hnone _ rfl]
      exact of_halt? (hf _ _ rfl) rfl hq
  | failed hcs hx hq hr =>
    rw [hnone _ hr, List.append_nil]
    exact .failed hcs hx hq (hf _ _ hr)

/-- The checks of an attempt that is only changed afterwards. -/
theorem map (h : Checked s cs r) {f : Attempt τ α → Attempt τ β} (hf : PassesHalt f)
    (hmatched : ∀ a m, r = ⟨.matched a, m⟩ → m.IsQuiet → Checked s [] (f ⟨.matched a, m⟩))
    (hmismatch : ∀ m, r = ⟨.mismatch, m⟩ → m.IsQuiet → Checked s [] (f ⟨.mismatch, m⟩)) :
    Checked s cs (f r) := by
  have h' := h.bind hf (fun _ _ => rfl) hmatched hmismatch
  rwa [List.append_nil] at h'

/-- The checks of an attempt, and of what follows if it matches. -/
theorem andThen (h : Checked s cs r) {f : α → Machine τ → Attempt τ β}
    {rest : α → Machine τ → List (Check τ)}
    (hf : ∀ a m, r = ⟨.matched a, m⟩ → m.IsQuiet → Checked s (rest a m) (f a m)) :
    Checked s (cs ++ r.ifMatched rest) (r.andThen f) := by
  refine h.bind (passesHalt_andThen f) (fun k hk => ifMatched_of_halt? hk rest) ?_ ?_
  · rintro a m rfl hq
    exact hf a m rfl hq
  · rintro m rfl hq
    exact of_mismatch hq

/-- The checks of an attempt, and of what follows if it does not match. -/
theorem orElse (h : Checked s cs r) {f : Machine τ → Attempt τ α}
    {rest : Machine τ → List (Check τ)}
    (hf : ∀ m, r = ⟨.mismatch, m⟩ → m.IsQuiet → Checked s (rest m) (f m)) :
    Checked s (cs ++ r.ifMismatch rest) (r.orElse f) := by
  refine h.bind (passesHalt_orElse f) (fun k hk => ifMismatch_of_halt? hk rest) ?_ ?_
  · rintro a m rfl hq
    exact of_matched hq
  · rintro m rfl hq
    exact hf m rfl hq

/-- What follows a match makes no checks. -/
theorem andThen_quiet (h : Checked s cs r) {f : α → Machine τ → Attempt τ β}
    (hf : ∀ a m, r = ⟨.matched a, m⟩ → m.IsQuiet → Checked s [] (f a m)) :
    Checked s cs (r.andThen f) := by
  have h' := h.andThen hf
  rwa [ifMatched_nil, List.append_nil] at h'

/-- What follows a mismatch makes no checks. -/
theorem orElse_quiet (h : Checked s cs r) {f : Machine τ → Attempt τ α}
    (hf : ∀ m, r = ⟨.mismatch, m⟩ → m.IsQuiet → Checked s [] (f m)) :
    Checked s cs (r.orElse f) := by
  have h' := h.orElse hf
  rwa [ifMismatch_nil, List.append_nil] at h'

/-- A check that fails is the last, and the attempt breaks off there. -/
theorem of_fails {c : Check τ} {x : GrammarError} (h : Checked s cs r) (hc : c ∈ cs)
    (hx : c.error? s = some x) :
    c.machine.IsQuiet ∧ r.halt? = some (c.halt x) ∧
      ∃ before, cs = before ++ [c] ∧ ∀ c' ∈ before, c'.error? s = none := by
  cases h with
  | passed hcs =>
    rw [hcs c hc] at hx
    cases hx
  | failed hcs hx' hq hr =>
    rcases List.mem_append.1 hc with hc | hc
    · rw [hcs c hc] at hx
      cases hx
    · obtain rfl := List.mem_singleton.1 hc
      obtain rfl := Option.some.inj (hx'.symm.trans hx)
      exact ⟨hq, hr, _, rfl, hcs⟩

/-- An error is that of a check. -/
theorem exists_of_error {x : GrammarError} (h : Checked s cs r) (hr : r.outcome = .error x) :
    ∃ c ∈ cs, c.error? s = some x := by
  cases h with
  | passed _ hne => exact absurd hr (hne x)
  | @failed cs c x' _ _ hx _ hhalt =>
    have hx' : Outcome.error x = .error x' := hr.symm.trans (Attempt.of_halt? hhalt).1
    cases hx'
    exact ⟨c, List.mem_append_right _ List.mem_cons_self, hx⟩

/-- What has been reported of a failure is that of a check. -/
theorem exists_of_isUnresolved {ev : Event} (h : Checked s cs r) (hev : .event ev ∈ r.machine.log)
    (hu : ev.isUnresolved = true) : ∃ c ∈ cs, ∃ x, c.error? s = some x ∧ x.event? = some ev := by
  cases h with
  | passed _ _ hq =>
    rw [hq ev hev] at hu
    cases hu
  | @failed cs c x _ _ hx hq hhalt =>
    rw [(Attempt.of_halt? hhalt).2.2] at hev
    refine ⟨c, List.mem_append_right _ List.mem_cons_self, x, hx, ?_⟩
    rcases Machine.event_mem_reportError hev with hev | hev
    · rw [hq ev hev] at hu
      cases hu
    · exact hev

end Attempt.Checked

/-! ### The checks of the engine -/

section

variable {s : Setting τ} {inner : Request τ → List (Check τ)} {call : Matcher τ} {g : Grammar τ}
  {e : Expression τ} {m : Machine τ}

theorem checked_matchTerminal (t : Terminal) (q : Quantifier) (h : m.IsQuiet) :
    (matchTerminal t q m).Checked s [] := by
  unfold matchTerminal
  split
  · exact .of_matched h
  · exact .of_mismatch h

variable (hcall : ∀ q : Request τ, q.machine.IsQuiet → (call.answer q).Checked s (inner q))
include hcall

theorem checked_matchRepeatedly (bound : Nat) (h : m.IsQuiet) :
    (matchRepeatedly (call g e) bound m).Checked s
      ((Request.ofRounds g e (rounds (call g e) bound m)).flatMap inner) := by
  induction bound generalizing m with
  | zero => exact .of_halt? rfl rfl h
  | succ bound ih =>
    have hround : (call g e m).Checked s (inner ⟨g, e, m⟩) := hcall ⟨g, e, m⟩ h
    rw [matchRepeatedly_succ]
    simp only [rounds, Request.ofRounds, List.map_cons, List.flatMap_cons]
    refine hround.bind (passesHalt_afterRound m _) (fun k hk => ?_) ?_ ?_
    · rw [Attempt.ifMatched_of_halt? hk]
      rfl
    · intro v m' hr hq
      simp only [hr, Attempt.ifMatched_matched, afterRound]
      split
      · exact .of_matched hq
      · exact (ih hq).andThen_quiet fun vs m'' _ hq' => .of_matched hq'
    · intro m' hr hq
      rw [hr]
      exact .of_matched hq

theorem checked_matchQuantified (q : Quantifier) (h : m.IsQuiet) :
    (matchQuantified (call g e) q m).Checked s
      ((Request.ofRounds g e (tries (call g e) q m)).flatMap inner) := by
  have hone : (call g e m).Checked s ((Request.ofRounds g e [⟨m, call g e m⟩]).flatMap inner) := by
    have hround : (call g e m).Checked s (inner ⟨g, e, m⟩) := hcall ⟨g, e, m⟩ h
    simpa [Request.ofRounds] using hround
  have hlist : ∀ allowed : Bool,
      ((matchRepeatedly (call g e) (m.position.rest.length + 1) m).andThen fun vs m' =>
        if vs.isEmpty && !allowed then ⟨.mismatch, m'.moveTo m.position⟩
        else ⟨.matched (Value.list vs), m'⟩).Checked s
      ((Request.ofRounds g e
        (rounds (call g e) (m.position.rest.length + 1) m)).flatMap inner) := by
    intro allowed
    refine (checked_matchRepeatedly hcall _ h).andThen_quiet fun vs m' _ hq => ?_
    split
    · exact .of_mismatch hq
    · exact .of_matched hq
  cases q with
  | one => exact hone
  | optional => exact hone.orElse_quiet fun m' _ hq => .of_matched hq
  | zeroOrMore => exact hlist _
  | oneOrMore => exact hlist _

/-- A symbol may break off where its reference is looked up, and else where what that leads to
does. -/
theorem checked_matchSymbol (x : Symbol) (h : m.IsQuiet) :
    (matchSymbol call g e x m).Checked s (checksOfSymbol inner call g e x m) := by
  have hkind : (matchKind call g e x m).Checked s (checksOfSymbol inner call g e x m) := by
    unfold matchKind checksOfSymbol requestsOfSymbol
    cases x.kind with
    | literal text => exact checked_matchTerminal _ _ h
    | pattern p => exact checked_matchTerminal _ _ h
    | reference ref =>
      simp only
      cases hr : g.resolve ref e.name with
      | ok target =>
        have hfound : ∀ c ∈ [Check.lookUp g e ref m], c.error? s = none := by
          simp [Check.error?, hr]
        exact (checked_matchQuantified hcall x.quantifier h).prepend hfound
      | error err =>
        have hfails : (Check.lookUp g e ref m).error? s = some err := by
          simp [Check.error?, hr]
        refine .of_failure hfails h ?_
        simp only [Attempt.halt?, Machine.reportError_position]
        rfl
  exact hkind.map (passesHalt_reportSymbol x) (fun _ _ _ hq => .of_matched (hq.report rfl))
    fun _ _ hq => .of_mismatch (hq.report rfl)

theorem checked_matchSymbols (rule : Rule τ) (start : Position) (xs : List Symbol)
    (h : m.IsQuiet) : (matchSymbols call g e rule start xs m).Checked s
      (checksOfSymbols inner call g e xs m) := by
  induction xs generalizing m with
  | nil => exact .of_matched h
  | cons x xs ih =>
    have hx := checked_matchSymbol (e := e) (g := g) hcall x (m := m.atSymbol x) h
    have hlook : (applyLookahead x.lookahead m.position
        (matchSymbol call g e x (m.atSymbol x))).Checked s
        (checksOfSymbol inner call g e x (m.atSymbol x)) := by
      cases x.lookahead with
      | consume => exact hx
      | assert => exact hx.andThen_quiet fun _ m' _ hq => .of_matched hq
      | lenient => exact hx.orElse_quiet fun m' _ hq => .of_matched hq
    have hgive := hlook.orElse_quiet (f := fun m' => ⟨.mismatch, giveUp e rule start x m'⟩)
      fun m' _ hq => .of_mismatch (hq.report rfl)
    simp only [checksOfSymbols, matchSymbols]
    rw [← Attempt.ifMatched_orElse_mismatch _ (giveUp e rule start x)]
    exact hgive.andThen fun v m' _ hq =>
      (ih hq).andThen_quiet fun vs m'' _ hq' => .of_matched hq'

theorem checked_matchRule (rule : Rule τ) (h : m.IsQuiet) :
    (matchRule s call g e rule m).Checked s
      (checksOfSymbols inner call g e rule.symbols (m.atRule rule)) :=
  (checked_matchSymbols hcall rule m.position rule.symbols (m := m.atRule rule) h).andThen_quiet
    fun _ _ _ hq => .of_matched ((hq.recordTransform _ _).report rfl)

theorem checked_matchRules (rules : List (Rule τ)) (h : m.IsQuiet) :
    (matchRules s call g e rules m).Checked s (checksOfRules s inner call g e rules m) := by
  induction rules generalizing m with
  | nil => exact .of_mismatch h
  | cons rule rules ih => exact (checked_matchRule hcall rule h).orElse fun m' _ hq => ih hq

theorem checked_matchInside (g : Grammar τ) (e : Expression τ) (h : m.IsQuiet) :
    (matchInside s call g e m).Checked s
      (checksOfRules s inner call g e e.rules (m.enter e)) := by
  have hrules := checked_matchRules (g := g) (e := e) hcall e.rules (m := m.enter e) h
  have hnone := hrules.orElse_quiet
    (f := fun m' => ⟨.mismatch, m'.report (.noRuleMatched e.name g.name m'.cursor)⟩)
    fun m' _ hq => .of_mismatch (hq.report rfl)
  have hleave : Attempt.PassesHalt fun r : Attempt τ Value =>
      r.mapMachine fun m' => m'.leave m.focus := by
    rintro ⟨o, m'⟩ k hk
    cases o <;> cases hk <;> rfl
  exact hnone.map hleave (fun _ _ _ hq => .of_matched hq) fun _ _ hq => .of_mismatch hq

end

/-- **The checks of a run are those of `checks`.** -/
theorem checked_answer (s : Setting τ) (bound : Nat) (q : Request τ) (h : q.machine.IsQuiet) :
    ((matchExpression s bound).answer q).Checked s (checks s bound q) := by
  induction bound generalizing q with
  | zero => exact .of_halt? rfl rfl h
  | succ bound ih =>
    simp only [checks]
    by_cases href : s.refuses q.machine = true
    · obtain ⟨limit, hl, hans⟩ := answer_of_refuses bound href
      have hfails : (Check.entry q).error? s =
          some (.depthExceeded limit q.expression.name) := by
        rw [refuses_iff hl] at href
        simp [Check.error?, hl, href]
      rw [if_pos href, hans]
      exact .of_failure hfails h rfl
    · rw [Bool.not_eq_true] at href
      have hpasses : ∀ c ∈ [Check.entry q], c.error? s = none := by
        cases hl : s.limit with
        | none => simp [Check.error?, hl]
        | some limit =>
          have hlt : ¬ limit < q.machine.depth + 1 := by
            rw [← refuses_iff hl, href]
            nofun
          simp only [List.mem_singleton, forall_eq, Check.error?, hl, if_neg hlt]
      rw [href, answer_of_not_refuses href]
      exact (checked_matchInside ih q.grammar q.expression h).prepend hpasses

/-! ### Every expression that is entered has been checked -/

section

variable {s : Setting τ} {inner : Request τ → List (Check τ)} {call : Matcher τ} {g : Grammar τ}
  {e : Expression τ} {m : Machine τ} {q : Request τ} {c : Check τ}

theorem mem_checksOfSymbol {x : Symbol} (hc : c ∈ inner q)
    (hq : q ∈ requestsOfSymbol call g e x m) : c ∈ checksOfSymbol inner call g e x m := by
  have hmem : c ∈ (requestsOfSymbol call g e x m).flatMap inner :=
    List.mem_flatMap.2 ⟨q, hq, hc⟩
  unfold checksOfSymbol
  split
  · exact List.mem_cons_of_mem _ hmem
  · rename_i hne
    unfold requestsOfSymbol at hq
    split at hq
    · rename_i ref href
      exact absurd href (hne ref)
    · cases hq

theorem mem_checksOfSymbols (hc : c ∈ inner q) (xs : List Symbol)
    (hq : q ∈ requestsOfSymbols call g e xs m) : c ∈ checksOfSymbols inner call g e xs m := by
  induction xs generalizing m with
  | nil => cases hq
  | cons x xs ih =>
    simp only [requestsOfSymbols, checksOfSymbols, List.mem_append] at hq ⊢
    refine hq.imp (mem_checksOfSymbol hc) fun hq => ?_
    obtain ⟨v, m', hr, hq⟩ := Attempt.mem_ifMatched.1 hq
    exact Attempt.mem_ifMatched.2 ⟨v, m', hr, ih hq⟩

theorem mem_checksOfRules (hc : c ∈ inner q) (rules : List (Rule τ))
    (hq : q ∈ requestsOfRules s call g e rules m) : c ∈ checksOfRules s inner call g e rules m := by
  induction rules generalizing m with
  | nil => cases hq
  | cons rule rules ih =>
    simp only [requestsOfRules, checksOfRules, List.mem_append] at hq ⊢
    refine hq.imp (mem_checksOfSymbols hc rule.symbols) fun hq => ?_
    obtain ⟨m', hr, hq⟩ := Attempt.mem_ifMismatch.1 hq
    exact Attempt.mem_ifMismatch.2 ⟨m', hr, ih hq⟩

theorem entry_mem_checks {bound level : Nat} {v : Visit τ} (hv : v ∈ visits s bound level q) :
    .entry v.toRequest ∈ checks s bound q := by
  induction bound generalizing level q with
  | zero => cases hv
  | succ bound ih =>
    simp only [visits, checks] at hv ⊢
    by_cases href : s.refuses q.machine = true
    · simp [href] at hv
    · rw [if_neg href, List.mem_cons, List.mem_flatMap] at hv
      rw [if_neg href]
      rcases hv with rfl | ⟨q', hq', hv⟩
      · exact List.mem_cons_self
      · exact List.mem_cons_of_mem _ (mem_checksOfRules (ih hv) q.expression.rules hq')

end

/-! ### Logs -/

theorem mem_eventsOf {log : List (Entry τ)} {ev : Event} :
    ev ∈ eventsOf log ↔ .event ev ∈ log := by
  simp only [eventsOf, List.mem_filterMap, List.mem_reverse]
  constructor
  · rintro ⟨entry, hmem, hentry⟩
    cases entry <;> cases hentry
    exact hmem
  · exact fun h => ⟨_, h, rfl⟩

theorem eventsOf_reportError (m : Machine τ) (x : GrammarError) :
    eventsOf (m.reportError x).log = eventsOf m.log ++ x.event?.toList := by
  unfold Machine.reportError
  cases hx : x.event? with
  | none => simp
  | some ev => exact eventsOf_cons ev

theorem callsOf_reportError (m : Machine τ) (x : GrammarError) :
    callsOf (m.reportError x).log = callsOf m.log := by
  unfold Machine.reportError
  split
  · exact callsOf_cons _
  · rfl

/-! ### Parses -/

namespace Session

variable (s : Session τ) (input : String)

/-- The checks of a parse. -/
def checks (text : List Char) : List (Check τ) :=
  match s.grammar.root? with
  | none => []
  | some e =>
    OrderedChoice.checks (s.setting text) (nestingBound s.grammar s.config text)
      (s.rootRequest text e)

theorem entry_mem_checks {text : List Char} {v : Visit τ} (hv : v ∈ s.visits text) :
    .entry v.toRequest ∈ s.checks text := by
  obtain ⟨e, he, hv⟩ := exists_root_of_mem_visits hv
  simp only [checks, he]
  exact OrderedChoice.entry_mem_checks hv

theorem isQuiet_startMachine (text : List Char) : (s.startMachine text).IsQuiet := by
  have hstart : (Machine.start (τ := τ) text).IsQuiet := fun _ hev => absurd hev List.not_mem_nil
  exact hstart.report rfl

/-- The root is entered with all the checks of the parse, and what follows makes none. -/
theorem checked_matchRoot (text : List Char) {e : Expression τ} (he : s.grammar.root? = some e) :
    (s.matchRoot text (s.startMachine text)).Checked (s.setting text) (s.checks text) := by
  have hroot : (s.rootAttempt text e).Checked (s.setting text) (s.checks text) := by
    simp only [checks, he]
    exact checked_answer _ _ _ (s.isQuiet_startMachine text)
  rw [matchRoot_eq s text he]
  refine hroot.andThen_quiet fun v m _ hq => ?_
  split
  · exact .of_mismatch (hq.report rfl)
  · exact .of_matched hq

variable {s}

/-- The report of a parse in which a check fails. -/
theorem report_of_check {c : Check τ} {x : GrammarError} (hc : c ∈ s.checks input.toList)
    (hx : c.error? (s.setting input.toList) = some x) :
    (s.parse input).1 = ⟨.error x,
      .event (.parseFinished false c.machine.cursor) :: (c.machine.reportError x).log⟩ ∧
    c.machine.IsQuiet ∧ ∃ before, s.checks input.toList = before ++ [c] ∧
      ∀ c' ∈ before, c'.error? (s.setting input.toList) = none := by
  cases he : s.grammar.root? with
  | none => simp [checks, he] at hc
  | some e =>
    obtain ⟨hq, hhalt, hlast⟩ := (s.checked_matchRoot input.toList he).of_fails hc hx
    obtain ⟨houtcome, hposition, hlog⟩ := Attempt.of_halt? hhalt
    refine ⟨?_, hq, hlast⟩
    rw [report_parse]
    simp only [Report.ofAttempt, houtcome, hlog, Machine.cursor, hposition]
    rfl

/-- An error is that of a check, or there is no root to start from. -/
theorem exists_check_of_error {x : GrammarError} (hx : (s.parse input).1.outcome = .error x) :
    (∃ c ∈ s.checks input.toList, c.error? (s.setting input.toList) = some x) ∨
      s.grammar.root? = none ∧ x = .missingRoot s.grammar.name := by
  cases he : s.grammar.root? with
  | none =>
    have hmissing : (s.parse input).1.outcome = .error (.missingRoot s.grammar.name) := by
      rw [report_parse]
      simp only [matchRoot, he]
      rfl
    rw [hmissing] at hx
    cases hx
    exact .inr ⟨rfl, rfl⟩
  | some e => exact .inl ((s.checked_matchRoot input.toList he).exists_of_error hx)

/-- A failure that is reported is that of a check. -/
theorem exists_check_of_isUnresolved {ev : Event} (hev : ev ∈ eventsOf (s.parse input).1.log)
    (hu : ev.isUnresolved = true) : ∃ c ∈ s.checks input.toList, ∃ x,
      c.error? (s.setting input.toList) = some x ∧ x.event? = some ev := by
  rw [report_parse, mem_eventsOf] at hev
  rcases List.mem_cons.1 hev with hev | hev
  · cases hev
    cases hu
  · cases he : s.grammar.root? with
    | none =>
      simp only [matchRoot, he] at hev
      rw [s.isQuiet_startMachine input.toList ev hev] at hu
      cases hu
    | some e => exact (s.checked_matchRoot input.toList he).exists_of_isUnresolved hev hu

theorem eventsOf_of_check {c : Check τ} {x : GrammarError} (hc : c ∈ s.checks input.toList)
    (hx : c.error? (s.setting input.toList) = some x) : eventsOf (s.parse input).1.log =
      eventsOf c.machine.log ++ x.event?.toList ++ [.parseFinished false c.machine.cursor] := by
  rw [(report_of_check input hc hx).1, eventsOf_cons, eventsOf_reportError]

/-- The failure of a look-up is reported if and only if the parse ends in it. -/
theorem event_mem_iff {x : GrammarError} {ev : Event} (hev : x.event? = some ev) :
    ev ∈ eventsOf (s.parse input).1.log ↔ (s.parse input).1.outcome = .error x := by
  constructor
  · intro hmem
    obtain ⟨c, hc, x', hx', hev'⟩ :=
      exists_check_of_isUnresolved input hmem (GrammarError.isUnresolved_of_event? hev)
    obtain rfl := GrammarError.eq_of_event? hev hev'
    rw [(report_of_check input hc hx').1]
  · intro hout
    rcases exists_check_of_error input hout with ⟨c, hc, hx⟩ | ⟨-, rfl⟩
    · rw [eventsOf_of_check input hc hx, hev]
      simp
    · cases hev

/-- **The first check that fails is the end of a parse.**  Every expression that is entered has been
checked.  The error of a check that fails is that of the parse, whatever encloses the symbol or
follows it, and nothing is logged any more but why the parse has broken off and that it is finished.
Except where there is no root, every error comes about in this way; and what is reported of a
look-up that has failed is the error of the parse, and is reported once, right before its end. -/
theorem parse_breaks_off (s : Session τ) (input : String) :
    let report := (s.parse input).1
    let error? := Check.error? (s.setting input.toList)
    (∀ v ∈ s.visits input.toList, .entry v.toRequest ∈ s.checks input.toList) ∧
    (∀ c ∈ s.checks input.toList, ∀ x, error? c = some x →
      report.outcome = .error x ∧
      (∃ before, s.checks input.toList = before ++ [c] ∧ ∀ c' ∈ before, error? c' = none) ∧
      callsOf report.log = callsOf c.machine.log ∧
      eventsOf report.log = eventsOf c.machine.log ++ x.event?.toList ++
        [.parseFinished false c.machine.cursor]) ∧
    (∀ x, report.outcome = .error x →
      (∃ c ∈ s.checks input.toList, error? c = some x) ∨
        s.grammar.root? = none ∧ x = .missingRoot s.grammar.name) ∧
    (∀ expression grammar referrer,
      .unresolvedExpression expression grammar referrer ∈ eventsOf report.log ↔
        report.outcome = .error (.unknownExpression expression grammar referrer)) ∧
    (∀ grammar active referrer,
      .unresolvedGrammar grammar active referrer ∈ eventsOf report.log ↔
        report.outcome = .error (.unknownGrammar grammar active referrer)) ∧
    ∀ ev ∈ eventsOf report.log, ev.isUnresolved = true →
      ∃ before n, eventsOf report.log = before ++ [ev, .parseFinished false n] ∧
        ∀ ev' ∈ before, ev'.isUnresolved = false := by
  intro report error?
  refine ⟨fun v hv => s.entry_mem_checks hv, fun c hc x hx => ?_,
    fun x hx => exists_check_of_error input hx, fun _ _ _ => event_mem_iff input rfl,
    fun _ _ _ => event_mem_iff input rfl, fun ev hev hu => ?_⟩
  · obtain ⟨hreport, -, hlast⟩ := report_of_check input hc hx
    have hreport : report = ⟨_, _⟩ := hreport
    refine ⟨by rw [hreport], hlast, ?_, eventsOf_of_check input hc hx⟩
    rw [hreport, callsOf_cons, callsOf_reportError]
  · obtain ⟨c, hc, x, hx, hev'⟩ := exists_check_of_isUnresolved input hev hu
    refine ⟨eventsOf c.machine.log, c.machine.cursor, ?_, fun ev' hmem => ?_⟩
    · rw [eventsOf_of_check input hc hx, hev']
      simp
    · exact (report_of_check input hc hx).2.1 ev' (mem_eventsOf.1 hmem)

end Session

/-! ### A reference that leads nowhere -/

/-- A dash, behind which a note may stand; but what a note is has been left open. -/
def item : Expression Empty :=
  ⟨"item", [⟨[.literal "-", ((Symbol.reference "note").quantified .optional).withLookahead .assert],
    none⟩, ⟨[.literal "-"], none⟩]⟩

def items : Expression Empty :=
  ⟨"items", [⟨[((Symbol.reference "item").quantified .zeroOrMore).withLookahead .lenient], none⟩,
    ⟨[.literal "-"], none⟩]⟩

def lists : Grammar Empty := .ofMembers "lists" (some "items") [items, item] []

/-- Neither the other rules nor the marks of the symbols keep a parse going. -/
theorem Session.parse_breaks_off_lists :
    let report := ((Session.new lists nofun .default).parse "--").1
    report.outcome = .error (.unknownExpression "note" "lists" "item") ∧
    eventsOf report.log = [.parseStarted "lists" 2, .symbolTried (.literal "-") true 1,
      .unresolvedExpression "note" "lists" "item", .parseFinished false 1] := by
  obtain ⟨-, hfails, -⟩ := parse_breaks_off (Session.new lists nofun .default) "--"
  obtain ⟨houtcome, -, -, hevents⟩ := hfails _ (List.mem_of_getLast? rfl) _ rfl
  exact ⟨houtcome, hevents⟩

end OrderedChoice
