import OrderedChoice.Proofs.Depth.Visits
import OrderedChoice.Proofs.Errors

/-!
# Limits on nesting

A limit on nesting ends every parse, and shows in a parse only where expressions nest more deeply.

* `Session.parse_within_limit`: under a limit a parse ends, with no more expressions open than the
  limit, and each repetition in it moves on with every round but the last;
* `withLimit_cases`: compared with a run that ends, the run under a limit is the same where no visit
  is deeper than the limit, and else breaks off at the first that is;
* `Session.parse_budget` says so of parses.
-/

namespace OrderedChoice

variable {τ α β : Type}

/-- The setting with a limit. -/
def Setting.withLimit (s : Setting τ) (limit : Nat) : Setting τ := { s with limit := some limit }

/-- The session with a limit on nesting, or without. -/
def Session.withMaxDepth (s : Session τ) (limit : Option UInt64) : Session τ :=
  { s with config := { s.config with maxDepth := limit } }

/-! ### A limit ends every run -/

/-- With a limit, a run ends within a bound as large as what is left up to the limit. -/
theorem ends_of_limit {s : Setting τ} {limit bound : Nat} (hl : s.limit = some limit)
    (q : Request τ) (hb : limit - q.machine.depth < bound) :
    ((matchExpression s bound).answer q).outcome ≠ .endless := by
  -- what is left up to the limit goes down with each request
  refine ends_of_rank (fun _ => True) (fun q => limit - q.machine.depth)
    (fun bound q _ href q' hq' => ⟨trivial, ?_⟩) trivial hb
  have hdepth : q'.machine.depth = q.machine.depth + 1 :=
    ((makes_requestsInside s bound q).asked q' hq').1.depth_eq
  have hroom : ¬ limit < q.machine.depth + 1 := by
    rw [← refuses_iff hl, href]
    nofun
  omega

/-! ### A run under a limit, beside one that ends -/

/-- The attempt does not break off because expressions nest too deeply. -/
def Attempt.Settles (r : Attempt τ α) : Prop :=
  ∀ h, r.halt? = some h → ∃ x, h.error? = some x ∧ ∀ limit e, x ≠ .depthExceeded limit e

theorem Attempt.settles_of_outcome {r : Attempt τ α} (hends : r.outcome ≠ .endless)
    (hdeep : ∀ limit e, r.outcome ≠ .error (.depthExceeded limit e)) : r.Settles := by
  intro h hh
  obtain ⟨o, m⟩ := r
  cases o with
  | error x =>
    cases hh
    exact ⟨x, rfl, fun limit e hx => hdeep limit e (congrArg _ hx)⟩
  | endless => exact absurd rfl hends
  | matched a => cases hh
  | mismatch => cases hh

theorem Attempt.Settles.of_passesHalt {r : Attempt τ α} {f : Attempt τ α → Attempt τ β}
    (hf : PassesHalt f) (h : (f r).Settles) : r.Settles := fun h' hh => h h' (hf r h' hh)

/-- All requests of a run that settles settle. -/
theorem Makes.settles {call : Matcher τ} {m : Machine τ} {qs : List (Request τ)}
    {F : Matcher τ → Attempt τ α} (hF : Makes call m qs F) (h : (F call).Settles)
    {q : Request τ} (hq : q ∈ qs) : (call.answer q).Settles := by
  intro h' hh
  obtain ⟨pre, post, hqs⟩ := List.append_of_mem hq
  exact h h' (hF.halts call pre q post h' hqs (fun _ _ => rfl) hh)

variable {s : Setting τ} {n : Nat}

/-- The limit is looked at only where expressions are entered. -/
theorem matchInside_withLimit (s : Setting τ) (n : Nat) (call : Matcher τ) (g : Grammar τ)
    (e : Expression τ) (m : Machine τ) :
    matchInside (s.withLimit n) call g e m = matchInside s call g e m := by
  have hrules : ∀ (rules : List (Rule τ)) (m : Machine τ),
      matchRules (s.withLimit n) call g e rules m = matchRules s call g e rules m := by
    intro rules
    induction rules with
    | nil => exact fun _ => rfl
    | cons rule rules ih =>
      intro m
      simp only [matchRules, ih]
      rfl
  simp only [matchInside, hrules]

/-- A run that settles is not refused what it asks for. -/
theorem Attempt.Settles.refuses_eq_false {bound : Nat} {q : Request τ}
    (h : ((matchExpression s (bound + 1)).answer q).Settles) : s.refuses q.machine = false := by
  by_contra href
  rw [Bool.not_eq_false] at href
  obtain ⟨limit, -, hans⟩ := answer_of_refuses bound href
  rw [hans] at h
  obtain ⟨x, hx, hne⟩ := h _ rfl
  cases hx
  exact hne _ _ rfl

/-- A matcher that answers each request in the same way or breaks off at it, which `find` tells
apart, leads to the same attempt or to one that breaks off at the first such request. -/
theorem Makes.same_or_halts {call call' : Matcher τ} {m : Machine τ} {qs : List (Request τ)}
    {F : Matcher τ → Attempt τ α} (hF : Makes call m qs F) {find : Request τ → Option β}
    {P : β → Prop} {halt : β → Halt τ}
    (h : ∀ q ∈ qs, (find q = none ∧ call'.answer q = call.answer q) ∨
      ∃ b, find q = some b ∧ P b ∧ (call'.answer q).halt? = some (halt b)) :
    (qs.findSome? find = none ∧ F call' = F call) ∨
      ∃ b, qs.findSome? find = some b ∧ P b ∧ (F call').halt? = some (halt b) := by
  have hsame : ∀ q ∈ qs, find q = none → call'.answer q = call.answer q := by
    intro q hq hnone
    rcases h q hq with ⟨-, hsame⟩ | ⟨b, hb, -⟩
    · exact hsame
    · rw [hnone] at hb
      cases hb
  rcases hfind : qs.findSome? find with _ | b
  · refine .inl ⟨rfl, hF.same call' fun q hq => hsame q hq ?_⟩
    exact List.findSome?_eq_none_iff.1 hfind q hq
  · -- the first request that is found breaks off, and those before it do not
    obtain ⟨pre, q, post, rfl, hb, hpre⟩ := List.findSome?_eq_some_iff.1 hfind
    rcases h q (by simp) with ⟨hnone, -⟩ | ⟨b', hb', hP, hhalt⟩
    · rw [hb] at hnone
      cases hnone
    · obtain rfl : b = b' := Option.some.inj (hb.symm.trans hb')
      refine .inr ⟨b, rfl, hP, hF.halts call' pre q post _ rfl (fun q' hq' => ?_) hhalt⟩
      exact hsame q' (List.mem_append_left _ hq') (hpre q' hq')

/-- The run under a limit is the same as one that settles where no visit of that is deeper, and
breaks off at the first visit that is. -/
theorem withLimit_cases (bound bound' level : Nat) (q : Request τ)
    (hlevel : q.machine.depth + 1 = level) (hle : level ≤ n + 1) (hb : n + 1 < level + bound')
    (hA : ((matchExpression s bound).answer q).Settles) :
    ((visits s bound level q).find? (fun v => decide (n < v.level)) = none ∧
      (matchExpression (s.withLimit n) bound').answer q = (matchExpression s bound).answer q) ∨
    ∃ v, (visits s bound level q).find? (fun v => decide (n < v.level)) = some v ∧
      v.level = n + 1 ∧ ((matchExpression (s.withLimit n) bound').answer q).halt? =
        some ⟨some (.depthExceeded n v.expression.name), v.machine.position, v.machine.log⟩ := by
  induction bound generalizing bound' level q with
  | zero =>
    obtain ⟨x, hx, -⟩ := hA _ rfl
    cases hx
  | succ bound ih =>
    obtain ⟨bound', rfl⟩ : ∃ b, bound' = b + 1 := Nat.exists_eq_succ_of_ne_zero (by omega)
    have href := hA.refuses_eq_false
    have hmakes := makes_requestsInside s bound q
    rw [answer_of_not_refuses href] at hA ⊢
    simp only [visits, href, Bool.false_eq_true, if_false]
    by_cases hdeep : level = n + 1
    · -- this visit is the first that is too deep
      have hrefuses : (s.withLimit n).refuses q.machine = true := by
        rw [refuses_iff rfl]
        omega
      obtain ⟨limit, hl, hans⟩ := answer_of_refuses bound' hrefuses
      cases hl
      refine .inr ⟨⟨q, level⟩, ?_, hdeep, ?_⟩
      · rw [List.find?_cons_of_pos (by simp [hdeep])]
      · rw [hans]
        rfl
    · have hrefuses : (s.withLimit n).refuses q.machine = false := by
        rw [← Bool.not_eq_true, refuses_iff rfl]
        omega
      rw [answer_of_not_refuses hrefuses, matchInside_withLimit,
        List.find?_cons_of_neg (by simp; omega), List.find?_flatMap]
      refine hmakes.same_or_halts fun q' hq' =>
        ih bound' (level + 1) q' ?_ (by omega) (by omega) (hmakes.settles hA hq')
      rw [(hmakes.asked q' hq').1.depth_eq]
      exact congrArg (· + 1) hlevel

/-! ### Logs -/

theorem Attempt.of_halt? {r : Attempt τ α} {x : GrammarError} {p : Position} {log : List (Entry τ)}
    (h : r.halt? = some ⟨some x, p, log⟩) :
    r.outcome = .error x ∧ r.machine.position = p ∧ r.machine.log = log := by
  obtain ⟨o, m⟩ := r
  cases o <;> cases h
  exact ⟨rfl, rfl, rfl⟩

variable {log log' : List (Entry τ)}

theorem eventsOf_cons (e : Event) : eventsOf (.event e :: log) = eventsOf log ++ [e] := by
  simp [eventsOf]

theorem callsOf_cons (e : Event) : callsOf (.event e :: log) = callsOf log := by
  simp [callsOf]

theorem eventsOf_cons_call (c : Call τ) : eventsOf (.call c :: log) = eventsOf log := by
  simp [eventsOf]

theorem callsOf_cons_call (c : Call τ) : callsOf (.call c :: log) = callsOf log ++ [c] := by
  simp [callsOf]

/-- What has been logged earlier was reported earlier. -/
theorem eventsOf_prefix (h : log <:+ log') : eventsOf log <+: eventsOf log' :=
  (List.reverse_prefix.2 h).filterMap _

theorem callsOf_prefix (h : log <:+ log') : callsOf log <+: callsOf log' :=
  (List.reverse_prefix.2 h).filterMap _

/-! ### Parses -/

/-- The report of a parse, which ends with that of its end. -/
def Report.ofAttempt (r : Attempt τ Value) : Report τ :=
  ⟨r.outcome, .event (.parseFinished r.outcome.isMatch r.machine.cursor) :: r.machine.log⟩

namespace Session

variable (s : Session τ) (input : String)

/-- The root expression, as a parse asks for it. -/
def rootRequest (text : List Char) (e : Expression τ) : Request τ :=
  ⟨s.grammar, e, s.startMachine text⟩

/-- What a parse makes of its root expression. -/
def rootAttempt (text : List Char) (e : Expression τ) : Attempt τ Value :=
  (matchExpression (s.setting text) (nestingBound s.grammar s.config text)).answer
    (s.rootRequest text e)

theorem matchRoot_eq (text : List Char) {e : Expression τ} (he : s.grammar.root? = some e) :
    s.matchRoot text (s.startMachine text) =
      s.checkRemainder (byteLength text) (s.rootAttempt text e) := by
  simp only [matchRoot, he]
  rfl

theorem visits_eq (text : List Char) {e : Expression τ} (he : s.grammar.root? = some e) :
    s.visits text =
    OrderedChoice.visits (s.setting text) (nestingBound s.grammar s.config text) 1
      (s.rootRequest text e) := by
  simp only [visits, he]
  rfl

variable {s} {e : Expression τ}

/-- Only a parse with a root enters expressions. -/
theorem exists_root_of_mem_visits {text : List Char} {v : Visit τ} (hv : v ∈ s.visits text) :
    ∃ e, s.grammar.root? = some e ∧ v ∈ OrderedChoice.visits (s.setting text)
      (nestingBound s.grammar s.config text) 1 (s.rootRequest text e) := by
  cases he : s.grammar.root? with
  | none => simp [visits, he] at hv
  | some e => exact ⟨e, rfl, s.visits_eq text he ▸ hv⟩

theorem passesHalt_checkRemainder (s : Session τ) (length : Nat) :
    Attempt.PassesHalt (s.checkRemainder length) := Attempt.passesHalt_andThen _

theorem log_checkRemainder (s : Session τ) (length : Nat) (r : Attempt τ Value) :
    r.machine.log <:+ (s.checkRemainder length r).machine.log := by
  obtain ⟨o, m⟩ := r
  cases o with
  | matched v =>
    simp only [checkRemainder, Attempt.andThen_matched]
    split
    · exact List.suffix_cons _ _
    · exact List.suffix_rfl
  | mismatch => exact List.suffix_rfl
  | error x => exact List.suffix_rfl
  | endless => exact List.suffix_rfl

theorem report_parse (s : Session τ) (input : String) : (s.parse input).1 =
    .ofAttempt (s.matchRoot input.toList (s.startMachine input.toList)) := rfl

theorem checkRemainder_ne_endless {length : Nat} {r : Attempt τ Value}
    (h : r.outcome ≠ .endless) : (s.checkRemainder length r).outcome ≠ .endless := by
  obtain ⟨o, m⟩ := r
  cases o with
  | matched v =>
    simp only [checkRemainder, Attempt.andThen_matched]
    split <;> simp
  | mismatch => simp [checkRemainder]
  | error x => simp [checkRemainder]
  | endless => exact h

/-- A parse ends if what it makes of its root does. -/
theorem parse_ne_endless
    (h : ∀ e, s.grammar.root? = some e → (s.rootAttempt input.toList e).outcome ≠ .endless) :
    (s.parse input).1.outcome ≠ .endless := by
  rw [report_parse]
  cases he : s.grammar.root? with
  | none =>
    simp only [matchRoot, he]
    nofun
  | some e =>
    rw [matchRoot_eq s _ he]
    exact checkRemainder_ne_endless (h e he)

theorem parse_ends_of_limit {limit : UInt64} (hl : s.config.maxDepth = some limit) :
    (s.parse input).1.outcome ≠ .endless := by
  have hlimit : (s.setting input.toList).limit = some limit.toNat := by simp [setting, hl]
  refine parse_ne_endless input fun e _ => ends_of_limit hlimit _ ?_
  simp only [nestingBound, hl]
  omega

/-- **A limit ends every parse.**  No more expressions are open at once than the limit, and no
repetition, of whatever expression at whatever place, has more than one round more than there are
bytes left: each round but the last matches some text, so that in the list that comes of it only the
last item can be that of a match without text. -/
theorem parse_within_limit (s : Session τ) (limit : UInt64) (input : String) :
    let limited := s.withMaxDepth (some limit)
    (limited.parse input).1.outcome ≠ .endless ∧
    (∀ v ∈ limited.visits input.toList, v.level ≤ limit.toNat) ∧
    ∀ (bound : Nat) (g : Grammar τ) (e : Expression τ) (m : Machine τ) (q : Quantifier),
      q.isRepeating = true →
      let one := matchExpression (limited.setting input.toList) bound g e
      (∀ k, (rounds one k m).length ≤ byteLength m.position.rest + 1 ∧
        ∀ r ∈ (rounds one k m).dropLast, r.MovesOn) ∧
      ∀ v m', matchQuantified one q m = ⟨.matched v, m'⟩ →
        v = .list ((rounds one (m.position.rest.length + 1) m).filterMap fun r =>
          r.attempt.value?) := by
  intro limited
  refine ⟨parse_ends_of_limit input rfl, fun v hv => ?_, fun bound g e m q hq => ?_⟩
  · obtain ⟨e, -, hv⟩ := exists_root_of_mem_visits hv
    have hlevel : (limited.rootRequest input.toList e).machine.depth + 1 = 1 := rfl
    exact level_le_limit rfl hlevel hv
  · intro one
    have hone : ∀ m, (one m).Exact m.position m.depth :=
      fun m => exact_matchExpression (limited.setting input.toList) bound g e m
    exact ⟨fun k => ⟨length_rounds_le hone k m, fun r => movesOn_of_mem_dropLast hone k m⟩,
      fun v m' => matchQuantified_eq_list hq⟩

theorem parse_ends_of_budget {m : Option UInt64}
    (h : m = none → ((s.withMaxDepth m).parse input).1.outcome ≠ .endless) :
    ((s.withMaxDepth m).parse input).1.outcome ≠ .endless := by
  cases m with
  | none => exact h rfl
  | some limit => exact parse_ends_of_limit input rfl

section

variable {m : Option UInt64} (n : UInt64)
  (hends : m = none → ((s.withMaxDepth m).parse input).1.outcome ≠ .endless)
  (hdeep : ∀ limit e,
    ((s.withMaxDepth m).parse input).1.outcome ≠ .error (.depthExceeded limit e))
include hends hdeep

/-- What a limit makes of the root expression of a parse. -/
theorem rootAttempt_withMaxDepth_cases (he : s.grammar.root? = some e) :
    (((s.withMaxDepth m).visits input.toList).find? (fun v => decide (n.toNat < v.level)) = none ∧
      (s.withMaxDepth (some n)).rootAttempt input.toList e =
        (s.withMaxDepth m).rootAttempt input.toList e) ∨
    ∃ v, ((s.withMaxDepth m).visits input.toList).find? (fun v => decide (n.toNat < v.level)) =
        some v ∧ v.level = n.toNat + 1 ∧
      ((s.withMaxDepth (some n)).rootAttempt input.toList e).halt? =
        some ⟨some (.depthExceeded n.toNat v.expression.name), v.machine.position,
          v.machine.log⟩ := by
  have hwide : (s.withMaxDepth m).matchRoot input.toList (s.startMachine input.toList) =
      s.checkRemainder (byteLength input.toList) ((s.withMaxDepth m).rootAttempt input.toList e) :=
    matchRoot_eq (s.withMaxDepth m) _ he
  have hsettles : ((s.withMaxDepth m).rootAttempt input.toList e).Settles := by
    refine .of_passesHalt (passesHalt_checkRemainder s (byteLength input.toList)) ?_
    rw [← hwide]
    exact Attempt.settles_of_outcome (parse_ends_of_budget input hends) hdeep
  rw [visits_eq (s.withMaxDepth m) _ he]
  exact withLimit_cases _ (n.toNat + 1) 1 _ rfl (by omega) (by omega) hsettles

/-- A limit that is not less than the nesting changes nothing. -/
theorem report_eq_of_deepest_le
    (h : deepest ((s.withMaxDepth m).visits input.toList) ≤ n.toNat) :
    ((s.withMaxDepth (some n)).parse input).1 = ((s.withMaxDepth m).parse input).1 := by
  have hroot : (s.withMaxDepth (some n)).matchRoot input.toList (s.startMachine input.toList) =
      (s.withMaxDepth m).matchRoot input.toList (s.startMachine input.toList) := by
    cases he : s.grammar.root? with
    | none => simp only [matchRoot, withMaxDepth, he]
    | some e =>
      rcases rootAttempt_withMaxDepth_cases input n hends hdeep he with ⟨-, hsame⟩ | ⟨v, hv, -, -⟩
      · have hnarrow := matchRoot_eq (s.withMaxDepth (some n)) input.toList he
        have hwide := matchRoot_eq (s.withMaxDepth m) input.toList he
        rw [hsame] at hnarrow
        exact hnarrow.trans hwide.symm
      · have hlevel := List.find?_some hv
        have hle := deepest_le_iff.1 h v (List.mem_of_find?_eq_some hv)
        rw [decide_eq_true_eq] at hlevel
        omega
  exact congrArg Report.ofAttempt hroot

/-- A smaller limit ends the parse where an expression is first entered too deep. -/
theorem exists_first_too_deep
    (h : n.toNat < deepest ((s.withMaxDepth m).visits input.toList)) :
    ∃ v, ((s.withMaxDepth m).visits input.toList).find? (fun v => decide (n.toNat < v.level)) =
        some v ∧ v.level = n.toNat + 1 ∧
      ((s.withMaxDepth (some n)).parse input).1 =
        ⟨.error (.depthExceeded n.toNat v.expression.name),
          .event (.parseFinished false v.machine.cursor) :: v.machine.log⟩ ∧
      v.machine.log <:+ ((s.withMaxDepth m).parse input).1.log := by
  obtain ⟨v₀, hv₀, hlt⟩ := lt_deepest_iff.1 h
  obtain ⟨e, he, -⟩ := exists_root_of_mem_visits hv₀
  rcases rootAttempt_withMaxDepth_cases input n hends hdeep he with
    ⟨hnone, -⟩ | ⟨v, hv, hlevel, hhalt⟩
  · exact absurd (decide_eq_true hlt) (List.find?_eq_none.1 hnone v₀ hv₀)
  · refine ⟨v, hv, hlevel, ?_, ?_⟩
    · -- what follows the root expression leaves alone how it breaks off
      have hroot := passesHalt_checkRemainder s (byteLength input.toList) _ _ hhalt
      have hnarrow := matchRoot_eq (s.withMaxDepth (some n)) input.toList he
      obtain ⟨houtcome, hposition, hlog⟩ := Attempt.of_halt? hroot
      rw [report_parse, hnarrow]
      change Report.ofAttempt (s.checkRemainder _ _) = _
      simp only [Report.ofAttempt, houtcome, hlog, Machine.cursor, hposition]
      rfl
    · have hmem := List.mem_of_find?_eq_some hv
      rw [visits_eq (s.withMaxDepth m) _ he] at hmem
      have hwide := matchRoot_eq (s.withMaxDepth m) input.toList he
      rw [report_parse, hwide]
      exact (log_of_mem_visits hmem).trans
        ((log_checkRemainder _ _ _).trans (List.suffix_cons _ _))

end

/-- **A limit is an exact and otherwise invisible budget.**  Take a parse that ends, with a limit or
without, in anything but an error about nesting.  A limit that is not less than its nesting changes
nothing.  A smaller one ends the parse in the error about the first expression that is entered too
deep, and all that is logged until then is the same. -/
theorem parse_budget (s : Session τ) (m : Option UInt64) (n : UInt64) (input : String)
    (hends : m = none → ((s.withMaxDepth m).parse input).1.outcome ≠ .endless)
    (hdeep : ∀ limit e,
      ((s.withMaxDepth m).parse input).1.outcome ≠ .error (.depthExceeded limit e)) :
    let wide := ((s.withMaxDepth m).parse input).1
    let narrow := ((s.withMaxDepth (some n)).parse input).1
    let entered := (s.withMaxDepth m).visits input.toList
    (deepest entered ≤ n.toNat → narrow = wide) ∧
    (n.toNat < deepest entered →
      ∃ v, entered.find? (fun v => decide (v.level = n.toNat + 1)) = some v ∧
        narrow.outcome = .error (.depthExceeded n.toNat v.expression.name) ∧
        callsOf narrow.log <+: callsOf wide.log ∧
        ∃ before, eventsOf narrow.log = before ++ [.parseFinished false v.machine.cursor] ∧
          before <+: eventsOf wide.log) := by
  intro wide narrow entered
  refine ⟨report_eq_of_deepest_le input n hends hdeep, fun hlt => ?_⟩
  obtain ⟨v, hv, hlevel, hnarrow, hlog⟩ := exists_first_too_deep input n hends hdeep hlt
  have hnarrow : narrow = ⟨_, _⟩ := hnarrow
  refine ⟨v, ?_, by rw [hnarrow], ?_, eventsOf v.machine.log, ?_, eventsOf_prefix hlog⟩
  · -- the first at this level is the first that is as deep
    obtain ⟨-, before, after, hsplit, hbefore⟩ := List.find?_eq_some_iff_append.1 hv
    refine List.find?_eq_some_iff_append.2 ⟨by simp [hlevel], before, after, hsplit, ?_⟩
    intro v' hv'
    have hshallow := hbefore v' hv'
    simp only [Bool.not_eq_true', decide_eq_false_iff_not] at hshallow ⊢
    omega
  · rw [hnarrow, callsOf_cons]
    exact callsOf_prefix hlog
  · rw [hnarrow, eventsOf_cons]

end Session

/-! ### Brackets -/

/-- Signs, for other grammars to import. -/
def signs : Grammar Empty :=
  .ofMembers "signs" (some "sign") [⟨"sign", [⟨[.literal "-"], none⟩]⟩] []

/-- A pair of brackets, with a sign or without, around any number of such pairs. -/
def bracket : Expression Empty :=
  ⟨"bracket", [⟨[(Symbol.qualified "signs" "sign").quantified .optional, .literal "(",
    (Symbol.reference "bracket").quantified .zeroOrMore, .literal ")"], none⟩]⟩

def brackets : Grammar Empty := .ofMembers "brackets" (some "bracket") [bracket] [signs]

def bracketSession : Session Empty := .new brackets nofun .default

theorem Session.parse_budget_brackets :
    let wide := ((bracketSession.withMaxDepth none).parse "(-())").1
    let narrow := ((bracketSession.withMaxDepth (some 2)).parse "(-())").1
    wide.outcome = .matched (.string "(-())") ∧
    deepest ((bracketSession.withMaxDepth none).visits "(-())".toList) = 4 ∧
    ((bracketSession.withMaxDepth (some 4)).parse "(-())").1 = wide ∧
    narrow.outcome = .error (.depthExceeded 2 "sign") ∧
    ∃ before, eventsOf narrow.log = before ++ [.parseFinished false 1] ∧
      before <+: eventsOf wide.log := by
  have hbudget := fun n => parse_budget bracketSession none n "(-())" (fun _ => nofun) nofun
  obtain ⟨v, hv, houtcome, -, hevents⟩ := (hbudget 2).2 (by decide)
  cases hv
  exact ⟨rfl, rfl, (hbudget 4).1 (by decide), houtcome, hevents⟩

end OrderedChoice
