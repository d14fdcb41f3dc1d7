import OrderedChoice.Proofs.Depth.LeftRecursion
import OrderedChoice.Proofs.History

/-!
# Cycles of leading references

Where the first rule of an expression begins with a reference, the first thing that is done in the
expression is to enter the one that the reference leads to (`Node.BeginsWith`).  Along a cycle of
such expressions no text is ever read, and nothing is reported.  What ends the parse is its limit on
nesting, which no quantifier and no lookahead takes for a mismatch, so that nothing else in the
rules is ever tried.

* `exists_first_request`: what the rules of an expression ask for first;
* `halt?_of_beginsWith`: an expression breaks off as the one that it begins with does;
* `halt?_of_cycle`: from any expression of a cycle, as many more are entered as there is room for;
* `Session.parse_of_cycle`: every limit is exceeded, at the expression that this number tells;
* `Session.parse_endless_of_cycle`: without a limit the parse never ends.
-/

namespace OrderedChoice

variable {τ : Type}

/-- The first symbol of the first rule of `n` is a reference that leads to `n'`. -/
def Node.BeginsWith (n n' : Node τ) : Prop :=
  ∃ rule rules x xs ref, n.expression.rules = rule :: rules ∧ rule.symbols = x :: xs ∧
    x.kind = .reference ref ∧ n.LeadsTo ref n'

/-! ### What is asked for first -/

theorem exists_first_try (one : Machine τ → Attempt τ Value) (q : Quantifier) (m : Machine τ) :
    ∃ rs, tries one q m = ⟨m, one m⟩ :: rs := by
  unfold tries
  split
  · exact ⟨_, rfl⟩
  · exact ⟨[], rfl⟩

/-- The machine as it is when the rules of an expression first ask for another one: one level
deeper, and otherwise only turned to a rule and a symbol. -/
structure Machine.FirstInside (m m' : Machine τ) : Prop where
  position_eq : m'.position = m.position
  depth_eq : m'.depth = m.depth + 1
  log_eq : m'.log = m.log

/-- The rules of an expression first ask for the one that it begins with. -/
theorem exists_first_request {q : Request τ} {n : Node τ} (hn : q.node.BeginsWith n)
    (s : Setting τ) (call : Matcher τ) : ∃ m qs, q.machine.FirstInside m ∧
      requestsInside s call q = ⟨n.grammar, n.expression, m⟩ :: qs := by
  obtain ⟨rule, rules, x, xs, ref, hrules, hsymbols, hk, hlead⟩ := hn
  have hrules : q.expression.rules = rule :: rules := hrules
  have hlead : q.grammar.resolve ref q.expression.name = .ok (n.grammar, n.expression) := hlead
  let m := ((q.machine.enter q.expression).atRule rule).atSymbol x
  obtain ⟨rs, hrs⟩ := exists_first_try (call n.grammar n.expression) x.quantifier m
  have hfirst : requestsOfSymbol call q.grammar q.expression x m =
      ⟨n.grammar, n.expression, m⟩ :: Request.ofRounds n.grammar n.expression rs := by
    simp only [requestsOfSymbol, hk, hlead, hrs]
    rfl
  refine ⟨m, ?_⟩
  rw [requestsInside, hrules, requestsOfRules, hsymbols, requestsOfSymbols, hfirst]
  exact ⟨_, ⟨rfl, rfl, rfl⟩, rfl⟩

/-- An expression breaks off as the one that it begins with does. -/
theorem halt?_of_beginsWith {s : Setting τ} {bound : Nat} {q : Request τ} {n : Node τ} {h : Halt τ}
    (hn : q.node.BeginsWith n) (href : s.refuses q.machine = false)
    (hfirst : ∀ m, q.machine.FirstInside m →
      ((matchExpression s bound).answer ⟨n.grammar, n.expression, m⟩).halt? = some h) :
    ((matchExpression s (bound + 1)).answer q).halt? = some h := by
  obtain ⟨m, qs, hm, hqs⟩ := exists_first_request hn s (matchExpression s bound)
  rw [answer_of_not_refuses href]
  exact (makes_requestsInside s bound q).halts _ [] _ qs h hqs nofun (hfirst m hm)

/-! ### Around a cycle -/

section

variable {s : Setting τ} {g : Grammar τ} {e : Nat → Expression τ} {k : Nat}
  (hcycle : ∀ i < k, Node.BeginsWith ⟨g, e i⟩ ⟨g, e ((i + 1) % k)⟩) (hk : 0 < k)
include hcycle hk

/-- From any expression of the cycle on, nesting goes on up to the limit, and the next expression is
the one that nests too deeply. -/
theorem halt?_of_cycle {limit : Nat} (hl : s.limit = some limit) {room i bound : Nat}
    {m : Machine τ} (hroom : m.depth + room = limit) (hb : room < bound) :
    ((matchExpression s bound).answer ⟨g, e (i % k), m⟩).halt? =
      some ⟨some (.depthExceeded limit (e ((i + room) % k)).name), m.position, m.log⟩ := by
  induction room generalizing i bound m with
  | zero =>
    obtain ⟨bound, rfl⟩ := Nat.exists_eq_succ_of_ne_zero (Nat.ne_of_gt hb)
    have href : s.refuses m = true := (refuses_iff hl m).2 (by omega)
    obtain ⟨_, hl', hans⟩ := answer_of_refuses (q := ⟨g, e (i % k), m⟩) bound href
    obtain rfl := Option.some.inj (hl.symm.trans hl')
    rw [hans]
    rfl
  | succ room ih =>
    obtain ⟨bound, rfl⟩ := Nat.exists_eq_succ_of_ne_zero (Nat.ne_of_gt (Nat.zero_lt_of_lt hb))
    have href : s.refuses m = false := by
      rw [← Bool.not_eq_true, refuses_iff hl]
      omega
    refine halt?_of_beginsWith (hcycle (i % k) (Nat.mod_lt i hk)) href fun m' hm' => ?_
    have hdepth : m'.depth = m.depth + 1 := hm'.depth_eq
    rw [Nat.mod_add_mod, ih (i := i + 1) (by omega) (by omega), hm'.position_eq, hm'.log_eq,
      Nat.add_right_comm]
    rfl

/-- Without a limit there is nothing that ends the nesting but the bound of the engine. -/
theorem halt?_of_cycle_of_unlimited (hl : s.limit = none) {bound i : Nat} {m : Machine τ} :
    ((matchExpression s bound).answer ⟨g, e (i % k), m⟩).halt? =
      some ⟨none, m.position, m.log⟩ := by
  induction bound generalizing i m with
  | zero => rfl
  | succ bound ih =>
    have href : s.refuses m = false := by simp [Setting.refuses, hl]
    refine halt?_of_beginsWith (hcycle (i % k) (Nat.mod_lt i hk)) href fun m' hm' => ?_
    rw [Nat.mod_add_mod, ih, hm'.position_eq, hm'.log_eq]

end

/-! ### Parses -/

namespace Session

/-- **Every cycle of leading references exhausts any limit**, and the error names the expression
that is one level too deep.  Let the root be the first of `k` expressions, the first rule of each of
which begins with a reference to the next, and that of the last with one to the first.  Whatever
else there is in the rules, a parse under a limit has no other outcome than the error, applies no
transform and reports nothing but its start and its end, and the session is as after any parse. -/
theorem parse_of_cycle (s : Session τ) (e : Nat → Expression τ) (k : Nat) (hk : 0 < k)
    (hroot : s.grammar.root? = some (e 0))
    (hcycle : ∀ i < k, Node.BeginsWith ⟨s.grammar, e i⟩ ⟨s.grammar, e ((i + 1) % k)⟩)
    (limit : UInt64) (input : String) :
    let limited := s.withMaxDepth (some limit)
    let report := (limited.parse input).1
    report.outcome = .error (.depthExceeded limit.toNat (e (limit.toNat % k)).name) ∧
    callsOf report.log = [] ∧
    eventsOf report.log =
      [.parseStarted s.grammar.name (byteLength input.toList), .parseFinished false 0] ∧
    (limited.parseInPlace input).1 = report.outcome ∧
    ∀ after ∈ [(limited.parse input).2, (limited.parseInPlace input).2],
      after.machine.cursor = 0 ∧ after.machine.depth = 0 ∧ after.machine.focus = .none ∧
        after.input = input := by
  intro limited report
  have hhalt : (limited.rootAttempt input.toList (e 0)).halt? =
      some ⟨some (.depthExceeded limit.toNat (e (limit.toNat % k)).name),
        .start input.toList, (s.startMachine input.toList).log⟩ := by
    have h : ((matchExpression (limited.setting input.toList) (limit.toNat + 1)).answer
        ⟨s.grammar, e (0 % k), s.startMachine input.toList⟩).halt? =
          some ⟨some (.depthExceeded limit.toNat (e ((0 + limit.toNat) % k)).name), _, _⟩ :=
      halt?_of_cycle hcycle hk rfl (Nat.zero_add _) (Nat.lt_succ_self _)
    rw [Nat.zero_mod, Nat.zero_add] at h
    exact h
  obtain ⟨houtcome, hposition, hlog⟩ :=
    Attempt.of_halt? (passesHalt_checkRemainder limited (byteLength input.toList) _ _ hhalt)
  have hreport : report = ⟨.error (.depthExceeded limit.toNat (e (limit.toNat % k)).name),
      .event (.parseFinished false 0) :: (s.startMachine input.toList).log⟩ := by
    change (limited.parse input).1 = _
    rw [report_parse, matchRoot_eq limited _ hroot]
    simp only [Report.ofAttempt, houtcome, hlog, Machine.cursor, hposition]
    rfl
  refine ⟨by rw [hreport], by rw [hreport]; rfl, by rw [hreport]; rfl, ?_, ?_⟩
  · rw [parseInPlace_eq]
  · intro after hafter
    simp only [parseInPlace_eq, List.mem_cons, List.not_mem_nil, or_false] at hafter
    rcases hafter with rfl | rfl <;> exact ⟨rfl, rfl, rfl, rfl⟩

/-- Without a limit, a parse of such a grammar does not end. -/
theorem parse_endless_of_cycle (s : Session τ) (e : Nat → Expression τ) (k : Nat) (hk : 0 < k)
    (hroot : s.grammar.root? = some (e 0))
    (hcycle : ∀ i < k, Node.BeginsWith ⟨s.grammar, e i⟩ ⟨s.grammar, e ((i + 1) % k)⟩)
    (input : String) :
    ((s.withMaxDepth none).parse input).1.outcome = .endless := by
  let unlimited := s.withMaxDepth none
  let bound := nestingBound unlimited.grammar unlimited.config input.toList
  have hhalt : ((matchExpression (unlimited.setting input.toList) bound).answer
      ⟨s.grammar, e (0 % k), s.startMachine input.toList⟩).halt? = some ⟨none, _, _⟩ :=
    halt?_of_cycle_of_unlimited hcycle hk rfl
  rw [Nat.zero_mod] at hhalt
  have hcheck := passesHalt_checkRemainder unlimited (byteLength input.toList) _ _ hhalt
  change (unlimited.parse input).1.outcome = _
  rw [report_parse, matchRoot_eq unlimited _ hroot]
  exact Attempt.endless_iff.2 ⟨_, _, hcheck⟩

end Session

/-! ### Chase and quarry -/

/-- What is chased, any number of times, comes first. -/
def chase : Expression Empty :=
  ⟨"chase", [⟨[((Symbol.reference "quarry").quantified .zeroOrMore).withLookahead .lenient,
    .literal "x"], none⟩, ⟨[.literal "y"], none⟩]⟩

def quarry : Expression Empty :=
  ⟨"quarry", [⟨[((Symbol.qualified "hunt" "chase").quantified .optional).withLookahead .assert],
    none⟩, ⟨[], none⟩]⟩

def hunt : Grammar Empty := .ofMembers "hunt" (some "chase") [chase, quarry] []

/-- Neither the marks of the references nor the other rules, which would match, keep the parse from
running into the limit. -/
theorem Session.parse_of_cycle_hunt :
    let session := (Session.new hunt nofun .default).withMaxDepth (some 7)
    (session.parse "y").1.outcome = .error (.depthExceeded 7 "quarry") ∧
      eventsOf (session.parse "y").1.log = [.parseStarted "hunt" 1, .parseFinished false 0] := by
  have hcycle : ∀ i < 2, Node.BeginsWith ⟨hunt, [chase, quarry].getD i chase⟩
      ⟨hunt, [chase, quarry].getD ((i + 1) % 2) chase⟩ := by
    intro i hi
    obtain rfl | rfl : i = 0 ∨ i = 1 := by omega
    · exact ⟨_, _, _, _, _, rfl, rfl, rfl, rfl⟩
    · exact ⟨_, _, _, _, _, rfl, rfl, rfl, rfl⟩
  have h := parse_of_cycle (.new hunt nofun .default) _ 2 (by decide) rfl hcycle 7 "y"
  exact ⟨h.1, h.2.2.1⟩

end OrderedChoice
