import OrderedChoice.Proofs.Depth.LeftRecursion
import OrderedChoice.Proofs.Scope
import OrderedChoice.Proofs.Simulation

/-!
# Parses depend only on what can be reached

Two grammars in which all that is looked up is the same (`Grammar.SameOn`) are matched side by side:
a reference leads to the same expression in both, in parts at the same path
(`Grammar.Corresponds.resolve`), so that the runs are a `Simulation`.  They are compared with the
same bound on nesting; that the bounds of the two parses differ does not matter, since a run that
ends within some bound is that of a parse (`Session.rootWithin_eq`).

* `Session.parse_hygienic`: no unseen change of a grammar shows in a parse, and an imported grammar
  sees nothing of the importer.
-/

namespace OrderedChoice

variable {τ : Type}

/-! ### What transforms see of a grammar -/

/-- The context with nothing of the active grammar but its name. -/
def Context.veiled (c : Context τ) : Context τ := { c with grammar := .empty c.grammar.name }

/-- The application with nothing of the active grammar but its name. -/
def Call.veiled (c : Call τ) : Call τ := { c with context := c.context.veiled }

/-- Transforms look at nothing of the active grammar but its name. -/
def Meaning.SeesNames (meaning : Meaning τ) : Prop :=
  ∀ t args c, meaning t args c.veiled = meaning t args c

/-! ### Parts at the same path -/

/-- The grammars are the parts of `g` and `g'` at a path at which the expression can be reached. -/
def Grammar.Corresponds (g g' : Grammar τ) (e : Expression τ) (h h' : Grammar τ) : Prop :=
  ∃ path key, g.LooksUp path key ∧ g.node? path = some h ∧ g'.node? path = some h' ∧
    h.expression? key = some e

namespace Grammar

variable {g g' h h' : Grammar τ} {e : Expression τ}

theorem SameOn.sameAt {path : List String} {n : String} (hs : g.SameOn g.LooksUp g.Qualifies g')
    (hn : g.LooksUp path n) (hnode : g.node? path = some h) (hnode' : g'.node? path = some h') :
    h.SameAt (g.LooksUp path) (g.Qualifies path) h' := by
  obtain ⟨h'', hnode'', hat⟩ := hs path h ⟨n, hn⟩ hnode
  obtain rfl := Option.some.inj (hnode'.symm.trans hnode'')
  exact hat

theorem Corresponds.name_eq (hs : g.SameOn g.LooksUp g.Qualifies g')
    (hc : g.Corresponds g' e h h') : h.name = h'.name := by
  obtain ⟨path, key, hlooks, hnode, hnode', -⟩ := hc
  exact (hs.sameAt hlooks hnode hnode').name_eq.symm

/-- A reference leads to the same expression, in parts at the same path again, or it fails with the
same error. -/
theorem Corresponds.resolve {ref : Reference} (hs : g.SameOn g.LooksUp g.Qualifies g')
    (hc : g.Corresponds g' e h h') (href : e.Mentions ref) :
    (∃ f k k', h.resolve ref e.name = .ok (k, f) ∧ h'.resolve ref e.name = .ok (k', f) ∧
      g.Corresponds g' f k k') ∨
    ∃ err, h.resolve ref e.name = .error err ∧ h'.resolve ref e.name = .error err := by
  obtain ⟨path, key, hlooks, hnode, hnode', he⟩ := hc
  have hat := hs.sameAt hlooks hnode hnode'
  have hq : ∀ n, ref.grammar = some n → g.Qualifies path n := fun n hn =>
    ⟨e, ref, ⟨key, hlooks, h, hnode, he⟩, href, hn⟩
  have htarget := hat.isSome_target? hq
  cases ht : h.target? ref with
  | none =>
    rw [ht, Option.isSome_none, Option.isSome_eq_false_iff, Option.isNone_iff_eq_none] at htarget
    refine .inr ⟨.unknownGrammar (ref.grammar.getD "") h.name e.name, ?_, ?_⟩
    · simp only [Grammar.resolve, ht]
    · simp only [Grammar.resolve, htarget, hat.name_eq]
  | some k =>
    rw [ht, Option.isSome_some, Option.isSome_iff_exists] at htarget
    obtain ⟨k', ht'⟩ := htarget
    -- both look for the expression at the path to which the reference goes on
    have hlooks' : g.LooksUp (path ++ h.descent ref) ref.expression :=
      .refer hlooks hnode he href (by rw [ht]; rfl)
    have hk : g.node? (path ++ h.descent ref) = some k := by
      rw [node?_append, hnode]
      exact node?_descent ht
    have hk' : g'.node? (path ++ h.descent ref) = some k' := by
      rw [node?_append, hnode', ← hat.descent_eq hq]
      exact node?_descent ht'
    have hat' := hs.sameAt hlooks' hk hk'
    have hfound := hat'.expression?_eq ref.expression hlooks'
    cases hf : k.expression? ref.expression with
    | some f =>
      rw [hf] at hfound
      refine .inl ⟨f, k, k', ?_, ?_, path ++ h.descent ref, ref.expression, hlooks', hk, hk', hf⟩
      · simp only [Grammar.resolve, ht, hf]
      · simp only [Grammar.resolve, ht', hfound]
    | none =>
      rw [hf] at hfound
      refine .inr ⟨.unknownExpression ref.expression k.name e.name, ?_, ?_⟩
      · simp only [Grammar.resolve, ht, hf]
      · simp only [Grammar.resolve, ht', hfound, hat'.name_eq]

end Grammar

/-! ### Runs in the two grammars -/

/-- Reports are the same, and so are applications of transforms but for what these do not see. -/
def LooksLike (log log' : List (Entry τ)) : Prop :=
  eventsOf log = eventsOf log' ∧ (callsOf log).map Call.veiled = (callsOf log').map Call.veiled

theorem LooksLike.event {log log' : List (Entry τ)} (h : LooksLike log log') (ev : Event) :
    LooksLike (.event ev :: log) (.event ev :: log') := by
  refine ⟨?_, ?_⟩
  · rw [eventsOf_cons, eventsOf_cons, h.1]
  · rw [callsOf_cons, callsOf_cons, h.2]

theorem LooksLike.call {log log' : List (Entry τ)} (h : LooksLike log log') {c c' : Call τ}
    (hc : c.veiled = c'.veiled) : LooksLike (.call c :: log) (.call c' :: log') := by
  refine ⟨?_, ?_⟩
  · rw [eventsOf_cons_call, eventsOf_cons_call, h.1]
  · rw [callsOf_cons_call, callsOf_cons_call, List.map_append, List.map_append, h.2,
      List.map_singleton, List.map_singleton, hc]

/-- A run in a grammar beside one in a grammar in which all that is looked up is the same. -/
def Simulation.ofSameOn (s : Setting τ) (hmeaning : s.meaning.SeesNames) {g g' : Grammar τ}
    (hs : g.SameOn g.LooksUp g.Qualifies g') : Simulation s s :=
  .inPlace s (g.Corresponds g') LooksLike (fun hc => hc.name_eq hs)
    (fun hc hrule hx href => hc.resolve hs ⟨_, hrule, _, hx, href⟩) (fun ev h => h.event ev)
    (fun t args rule p q h hc => h.call (by
      simp only [Call.veiled, Context.veiled, hc.name_eq hs]))
    (fun {e h h'} t args rule p q hc => by
      rw [← hmeaning, ← hmeaning t args ⟨h', _, _, _, _, _⟩]
      simp only [Context.veiled, hc.name_eq hs])

theorem Attempt.result?_eq_none_iff {α : Type} {r : Attempt τ α} :
    r.result? = none ↔ r.outcome = .endless := by
  obtain ⟨o, m⟩ := r
  cases o <;> simp [Attempt.result?]

/-- What is entered to answer a request is in a part of the grammar that the request is for. -/
theorem isPartOf_of_mem_visits {s : Setting τ} {bound level : Nat} {q : Request τ} {v : Visit τ}
    (hv : v ∈ visits s bound level q) : v.grammar.IsPartOf q.grammar := by
  refine (visits_induct (P := fun _ q' => q'.grammar.IsPartOf q.grammar)
    (fun bound level q' hq' _ q'' hq'' => ?_) .self hv).1
  obtain ⟨_, _, _, _, hlead⟩ := (leftReaches_of_mem_requestsInside hq'').1
  exact (hq'.of_resolve hlead).1

namespace Session

theorem outcome_checkRemainder (s : Session τ) (length : Nat) {r : Attempt τ Value}
    (h : r.outcome = .endless) : (s.checkRemainder length r).outcome = .endless := by
  obtain ⟨o, m⟩ := r
  obtain rfl : o = .endless := h
  rfl

variable {s : Session τ} {text : List Char} {e : Expression τ}

/-- What a session makes of its root expression within a bound on nesting. -/
def rootWithin (s : Session τ) (bound : Nat) (text : List Char) (e : Expression τ) :
    Attempt τ Value :=
  (matchExpression (s.setting text) bound).answer (s.rootRequest text e)

/-- The bound of a parse is large enough for every run that ends. -/
theorem rootWithin_eq (he : s.grammar.root? = some e) {bound : Nat}
    (hends : (s.rootWithin bound text e).outcome ≠ .endless) :
    s.rootWithin bound text e = s.rootAttempt text e := by
  obtain ⟨r, hr⟩ := Option.ne_none_iff_exists'.1 (mt Attempt.result?_eq_none_iff.1 hends)
  have hmatches := ((result?_matchExpression _ _ _ _ _ _).1 hr).matches
  have hroot : (s.rootAttempt text e).outcome ≠ .endless := by
    have hframe : Matches (s.setting text) (s.rootFrame e) (.start text) r :=
      s.frame_root text e ▸ hmatches
    have hresult := (result?_root he (m := s.startMachine text) rfl rfl).2 hframe
    intro hend
    have hnone : (s.rootAttempt text e).result? = none := Attempt.result?_eq_none_iff.2 hend
    exact absurd (hnone.symm.trans hresult) (by simp)
  rcases Nat.le_total bound (nestingBound s.grammar s.config text) with hle | hle
  · exact (answer_of_le hle hends).symm
  · exact answer_of_le hle hroot

/-- The session with another grammar. -/
def withGrammar (s : Session τ) (g : Grammar τ) : Session τ := { s with grammar := g }

section

variable {g' : Grammar τ} (hmeaning : s.meaning.SeesNames)
  (hs : s.grammar.SameOn s.grammar.LooksUp s.grammar.Qualifies g')
  (hname : g'.name = s.grammar.name)
include hs

theorem root?_of_sameOn (hroot : g'.rootName = s.grammar.rootName) :
    g'.root? = s.grammar.root? := by
  unfold Grammar.root?
  rw [hroot]
  cases hr : s.grammar.rootName with
  | none => rfl
  | some name => exact (hs.sameAt (.root hr) rfl rfl).expression?_eq name (.root hr)

include hmeaning hname

/-- The root is matched in the same way, within whatever bound. -/
theorem attempts_rootWithin (text : List Char) (he : s.grammar.root? = some e) (bound : Nat) :
    (Simulation.ofSameOn (s.setting text) hmeaning hs).Attempts (s.rootWithin bound text e)
      ((s.withGrammar g').rootWithin bound text e) := by
  obtain ⟨name, hroot, hfound⟩ := Option.bind_eq_some_iff.1 he
  refine Simulation.attempts_matchExpression _ bound ⟨[], name, .root hroot, rfl, rfl, hfound⟩
    ⟨rfl, rfl, rfl, ?_⟩
  simp only [rootRequest, startMachine, withGrammar, hname]
  exact ⟨rfl, rfl⟩

/-- Parses of the root that end are alike. -/
theorem attempts_rootAttempt (hroot : g'.rootName = s.grammar.rootName)
    (he : s.grammar.root? = some e) (hends : (s.rootAttempt text e).outcome ≠ .endless) :
    (Simulation.ofSameOn (s.setting text) hmeaning hs).Attempts (s.rootAttempt text e)
      ((s.withGrammar g').rootAttempt text e) := by
  have halike := attempts_rootWithin hmeaning hs hname text he
    (nestingBound s.grammar s.config text)
  have hends' := halike.outcome_eq ▸ hends
  have he' : (s.withGrammar g').grammar.root? = some e := (root?_of_sameOn hs hroot).trans he
  have hbound := rootWithin_eq he' hends'
  exact hbound ▸ halike

theorem endless_iff_of_sameOn (hroot : g'.rootName = s.grammar.rootName)
    (he : s.grammar.root? = some e) :
    (s.rootAttempt text e).outcome = .endless ↔
      ((s.withGrammar g').rootAttempt text e).outcome = .endless := by
  refine not_iff_not.1 ⟨fun hends => ?_, fun hends' => ?_⟩
  · exact (attempts_rootAttempt hmeaning hs hname hroot he hends).outcome_eq ▸ hends
  · -- a run in the first grammar, with the bound for the second
    have halike := attempts_rootWithin hmeaning hs hname text he
      (nestingBound g' s.config text)
    have hends : (s.rootWithin (nestingBound g' s.config text) text e).outcome ≠ .endless :=
      halike.outcome_eq ▸ hends'
    exact rootWithin_eq he hends ▸ hends

/-- A parse in the other grammar comes to the same, and one that ends looks the same. -/
theorem parse_of_sameOn (hroot : g'.rootName = s.grammar.rootName) (input : String) :
    (s.parse input).1.outcome = ((s.withGrammar g').parse input).1.outcome ∧
    ((s.parse input).1.outcome ≠ .endless →
      LooksLike (s.parse input).1.log ((s.withGrammar g').parse input).1.log) := by
  rw [report_parse, report_parse]
  have hroot? : (s.withGrammar g').grammar.root? = s.grammar.root? := root?_of_sameOn hs hroot
  cases he : s.grammar.root? with
  | none =>
    have he' := hroot?.trans he
    have hname' : (s.withGrammar g').grammar.name = s.grammar.name := hname
    have hsame : (s.withGrammar g').matchRoot input.toList
        ((s.withGrammar g').startMachine input.toList) =
        s.matchRoot input.toList (s.startMachine input.toList) := by
      simp only [matchRoot, he, he', startMachine, hname']
    rw [hsame]
    exact ⟨rfl, fun _ => ⟨rfl, rfl⟩⟩
  | some e =>
    rw [matchRoot_eq s _ he, matchRoot_eq (s.withGrammar g') _ (hroot?.trans he)]
    by_cases hend : (s.rootAttempt input.toList e).outcome = .endless
    · have hend' := (endless_iff_of_sameOn hmeaning hs hname hroot he).1 hend
      have hout := s.outcome_checkRemainder (byteLength input.toList) hend
      have hout' := (s.withGrammar g').outcome_checkRemainder (byteLength input.toList) hend'
      exact ⟨hout.trans hout'.symm, fun hne => absurd hout hne⟩
    · have halike : (Simulation.ofSameOn (s.setting input.toList) hmeaning hs).Attempts
          (s.checkRemainder (byteLength input.toList) (s.rootAttempt input.toList e))
          ((s.withGrammar g').checkRemainder (byteLength input.toList)
            ((s.withGrammar g').rootAttempt input.toList e)) :=
        Simulation.attempts_checkRemainder rfl (congrArg _) _
          (attempts_rootAttempt hmeaning hs hname hroot he hend)
      obtain ⟨o, k, k', hr, hr', hk⟩ := halike.exists_eq
      rw [hr, hr']
      have hfinish := hk.report hk.place hk.place fun cursor _ => .parseFinished o.isMatch cursor
      refine ⟨rfl, fun _ => ?_⟩
      exact hfinish.log

end

/-- **No parse depends on anything but what can be reached.**  Where all changes of a grammar are
unseen and transforms look at nothing of it but its name, a parse comes to the same; if it ends then
it also reports the same and applies the same transforms, and if it does not then this is so for as
long as it runs.  In particular, below an expression of an imported grammar only parts of this
grammar are active, and never the importer. -/
theorem parse_hygienic (s : Session τ) (changes : List (Change τ)) (input : String)
    (hmeaning : s.meaning.SeesNames) (hunseen : ∀ c ∈ changes, c.IsUnseen s.grammar) :
    let changed := s.withGrammar (changes.foldl Grammar.change s.grammar)
    let before := (s.parse input).1
    let after := (changed.parse input).1
    before.outcome = after.outcome ∧
    (before.outcome ≠ .endless → eventsOf before.log = eventsOf after.log ∧
      (callsOf before.log).map Call.veiled = (callsOf after.log).map Call.veiled) ∧
    (∀ e, s.grammar.root? = some e → changed.grammar.root? = some e ∧ ∀ bound,
      let run := s.rootWithin bound input.toList e
      let run' := changed.rootWithin bound input.toList e
      run.outcome = run'.outcome ∧ eventsOf run.machine.log = eventsOf run'.machine.log ∧
        (callsOf run.machine.log).map Call.veiled =
          (callsOf run'.machine.log).map Call.veiled) ∧
    ∀ v ∈ s.visits input.toList, ∀ bound level,
      ∀ v' ∈ OrderedChoice.visits (s.setting input.toList) bound level v.toRequest,
        v'.grammar.IsPartOf v.grammar ∧
          ∀ importer, v.grammar ∈ importer.imports → v'.grammar ≠ importer := by
  intro changed before after
  have hs := s.grammar.sameOn_foldl changes hunseen
  have hname := s.grammar.name_foldl changes
  have hroot := s.grammar.rootName_foldl changes
  obtain ⟨houtcome, hlooks⟩ := parse_of_sameOn hmeaning hs hname hroot input
  refine ⟨houtcome, hlooks, fun e he => ⟨(root?_of_sameOn hs hroot).trans he, fun bound => ?_⟩,
    fun v _ bound level v' hv' => ?_⟩
  · have halike := attempts_rootWithin hmeaning hs hname input.toList he bound
    exact ⟨halike.outcome_eq, halike.machines.log⟩
  · have hpart := isPartOf_of_mem_visits hv'
    exact ⟨hpart, fun importer hi => hpart.ne_importer hi⟩

end Session

/-! ### Signs in brackets -/

theorem mentions_bracket {ref : Reference} (h : bracket.Mentions ref) :
    ref = ⟨some "signs", "sign"⟩ ∨ ref = ⟨none, "bracket"⟩ := by
  obtain ⟨rule, hrule, x, hx, hk⟩ := h
  obtain rfl := List.mem_singleton.1 hrule
  simp only [List.mem_cons, List.not_mem_nil, or_false] at hx
  rcases hx with rfl | rfl | rfl | rfl <;> cases hk
  · exact .inl rfl
  · exact .inr rfl

theorem looksUp_brackets {path : List String} {name : String} (h : brackets.LooksUp path name) :
    (path = [] ∧ name = "bracket") ∨ (path = ["signs"] ∧ name = "sign") := by
  induction h with
  | root hroot =>
    cases hroot
    exact .inl ⟨rfl, rfl⟩
  | refer _ hnode he href _ ih =>
    rcases ih with ⟨rfl, rfl⟩ | ⟨rfl, rfl⟩
    · cases hnode
      cases he
      rcases mentions_bracket href with rfl | rfl
      · exact .inr ⟨rfl, rfl⟩
      · exact .inl ⟨rfl, rfl⟩
    · -- signs refer to nothing
      cases hnode
      cases he
      obtain ⟨rule, hrule, x, hx, hk⟩ := href
      obtain rfl := List.mem_singleton.1 hrule
      obtain rfl := List.mem_singleton.1 hx
      cases hk

/-- The importer is given signs of its own and another import, and the import a bracket: neither
looks up what the other has. -/
def shadowing : List (Change Empty) :=
  [⟨[], .putExpression "sign" ⟨"sign", []⟩⟩, ⟨["signs"], .putExpression "bracket" ⟨"bracket", []⟩⟩,
    ⟨[], .putImport "digits" (.empty "digits")⟩]

theorem isUnseen_shadowing : ∀ c ∈ shadowing, c.IsUnseen brackets := by
  intro c hc
  simp only [shadowing, List.mem_cons, List.not_mem_nil, or_false] at hc
  rcases hc with rfl | rfl | rfl
  · refine ⟨?_, nofun⟩
    rintro n ⟨⟩ hn
    simpa using looksUp_brackets hn
  · refine ⟨?_, nofun⟩
    rintro n ⟨⟩ hn
    simpa using looksUp_brackets hn
  · refine ⟨nofun, ?_⟩
    rintro n ⟨⟩ ⟨e, ref, ⟨key, hlooks, h, hnode, he⟩, href, hq⟩
    cases hnode
    obtain rfl : key = "bracket" := by simpa using looksUp_brackets hlooks
    cases he
    rcases mentions_bracket href with rfl | rfl <;> simp at hq

theorem Session.parse_hygienic_brackets :
    bracketSession.meaning.SeesNames ∧ (∀ c ∈ shadowing, c.IsUnseen brackets) ∧
    ((bracketSession.withGrammar (shadowing.foldl Grammar.change brackets)).parse
      "(-())").1.outcome = .matched (.string "(-())") := by
  have hmeaning : bracketSession.meaning.SeesNames := nofun
  exact ⟨hmeaning, isUnseen_shadowing,
    (parse_hygienic bracketSession shadowing "(-())" hmeaning isUnseen_shadowing).1.symm⟩

end OrderedChoice
