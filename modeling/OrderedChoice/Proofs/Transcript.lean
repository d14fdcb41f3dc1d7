import OrderedChoice.Proofs.Checks
import OrderedChoice.Proofs.History

/-!
# What the events of a parse tell

The events that a parse reports are a derivation written down in the order in which it is tried.
`Tells T i o evs` says that the events `evs` are what is reported of the topic `T`, begun at the
offset `i`: it has matched up to the offset `j` where `o = some j`, and it has failed where `o` is
`none`.  Its constructors are the grammar of the log, one for each way in which the engine goes on.

* `Tells.followsSymbols`: a rule is given up right after the report of the symbol that has failed,
  at its place, and goes back to where the rule was begun;
* `Attempt.IsTold` is the invariant of the engine, shown of its functions one by one
  (`isTold_matchExpression`);
* `Session.events_tell`: what a parse that ends in no error reports between its start and its end
  is one frame of the root expression.
-/

namespace OrderedChoice

variable {τ : Type}

/-! ### The grammar of the log -/

/-- What a stretch of the log is about. -/
inductive Topic (τ : Type) where
  /-- An expression, in the grammar that is active while its rules are tried. -/
  | frame (g : Grammar τ) (e : Expression τ)
  /-- The rules that are left of an expression. -/
  | rules (g : Grammar τ) (e : Expression τ) (rules : List (Rule τ))
  | attempt (g : Grammar τ) (e : Expression τ) (rule : Rule τ)
  /-- The symbols that are left of a rule which was begun at an offset. -/
  | symbols (g : Grammar τ) (e : Expression τ) (rule : Rule τ) (start : Nat) (xs : List Symbol)
  | symbol (g : Grammar τ) (e : Expression τ) (x : Symbol)
  /-- An expression, again and again. -/
  | rounds (g : Grammar τ) (e : Expression τ)

/-- What a reference with a quantifier is about. -/
def Quantifier.topic (q : Quantifier) (g : Grammar τ) (e : Expression τ) : Topic τ :=
  if q.isRepeating then .rounds g e else .frame g e

/-- What a quantifier makes of a failure at an offset. -/
def Quantifier.settle (q : Quantifier) (i : Nat) (o : Option Nat) : Option Nat :=
  o.or (if q.allowsNone then some i else none)

/-- Where a rule goes on after a symbol that was tried at an offset, if it does. -/
def Lookahead.next (l : Lookahead) (i : Nat) (o : Option Nat) : Option Nat :=
  match l with
  | .consume => o
  | .assert => o.map fun _ => i
  | .lenient => some (o.getD i)

/-- The report of a symbol that was tried at an offset. -/
def Event.ofSymbol (x : Symbol) (i : Nat) (o : Option Nat) : Event :=
  .symbolTried x o.isSome (o.getD i)

/-- The events tell of the topic, from the offset where it is begun to the one where it has matched,
or to its failure. -/
inductive Tells : Topic τ → Nat → Option Nat → List Event → Prop
  -- an expression matches with one of its rules, or fails with all of them
  | matched {g : Grammar τ} {e : Expression τ} {i j : Nat} {evs : List Event} :
      Tells (.rules g e e.rules) i (some j) evs → Tells (.frame g e) i (some j) evs
  | failed {g : Grammar τ} {e : Expression τ} {i : Nat} {evs : List Event} :
      Tells (.rules g e e.rules) i none evs →
      Tells (.frame g e) i none (evs ++ [.noRuleMatched e.name g.name i])
  -- rules are tried in order, each from the same place, up to the first that matches
  | noRule {g : Grammar τ} {e : Expression τ} {i : Nat} : Tells (.rules g e []) i none []
  | chosen {g : Grammar τ} {e : Expression τ} {rule : Rule τ} {rules : List (Rule τ)} {i j : Nat}
      {evs : List Event} : Tells (.attempt g e rule) i (some j) evs →
      Tells (.rules g e (rule :: rules)) i (some j) evs
  | nextRule {g : Grammar τ} {e : Expression τ} {rule : Rule τ} {rules : List (Rule τ)} {i : Nat}
      {o : Option Nat} {evs evs' : List Event} : Tells (.attempt g e rule) i none evs →
      Tells (.rules g e rules) i o evs' → Tells (.rules g e (rule :: rules)) i o (evs ++ evs')
  -- a rule is completed, or it is given up at one of its symbols
  | completed {g : Grammar τ} {e : Expression τ} {rule : Rule τ} {i j : Nat} {evs : List Event} :
      Tells (.symbols g e rule i rule.symbols) i (some j) evs →
      Tells (.attempt g e rule) i (some j) (evs ++ [.ruleMatched e.name rule.symbols i j])
  | givenUp {g : Grammar τ} {e : Expression τ} {rule : Rule τ} {i : Nat} {evs : List Event} :
      Tells (.symbols g e rule i rule.symbols) i none evs →
      Tells (.attempt g e rule) i none evs
  -- symbols follow each other; after one that fails there is nothing but the report of giving up
  | done {g : Grammar τ} {e : Expression τ} {rule : Rule τ} {start i : Nat} :
      Tells (.symbols g e rule start []) i (some i) []
  | nextSymbol {g : Grammar τ} {e : Expression τ} {rule : Rule τ} {x : Symbol} {xs : List Symbol}
      {start i k : Nat} {o o' : Option Nat} {evs evs' : List Event} :
      Tells (.symbol g e x) i o evs → x.lookahead.next i o = some k →
      Tells (.symbols g e rule start xs) k o' evs' →
      Tells (.symbols g e rule start (x :: xs)) i o' (evs ++ evs')
  | backtrack {g : Grammar τ} {e : Expression τ} {rule : Rule τ} {x : Symbol} {xs : List Symbol}
      {start i : Nat} {evs : List Event} : Tells (.symbol g e x) i none evs →
      x.lookahead ≠ .lenient → start ≤ i →
      Tells (.symbols g e rule start (x :: xs)) i none
        (evs ++ [.backtrack e.name rule.symbols x i start])
  -- a symbol is reported after the expressions that it refers to
  | terminal {g : Grammar τ} {e : Expression τ} {x : Symbol} {i : Nat} {o : Option Nat} :
      (∀ ref, x.kind ≠ .reference ref) → (∀ j, o = some j → i ≤ j) →
      Tells (.symbol g e x) i o [.ofSymbol x i o]
  | reference {g g' : Grammar τ} {e e' : Expression τ} {x : Symbol} {ref : Reference} {i : Nat}
      {o : Option Nat} {evs : List Event} : x.kind = .reference ref →
      g.resolve ref e.name = .ok (g', e') → Tells (x.quantifier.topic g' e') i o evs →
      Tells (.symbol g e x) i (x.quantifier.settle i o)
        (evs ++ [.ofSymbol x i (x.quantifier.settle i o)])
  -- rounds go on as long as they match some text
  | lastRound {g : Grammar τ} {e : Expression τ} {i : Nat} {o : Option Nat} {evs : List Event} :
      Tells (.frame g e) i o evs → (∀ j, o = some j → j = i) → Tells (.rounds g e) i o evs
  | nextRound {g : Grammar τ} {e : Expression τ} {i j : Nat} {o : Option Nat}
      {evs evs' : List Event} : Tells (.frame g e) i (some j) evs → i < j →
      Tells (.rounds g e) j o evs' → Tells (.rounds g e) i (some (o.getD j)) (evs ++ evs')

/-! ### Giving up -/

/-- Wherever a rule is given up, this is right after the report that its symbol has failed, and the
place to go back to is not behind. -/
def BacktracksFollow (evs : List Event) : Prop :=
  ∀ before expression rule x i start behind,
    evs = before ++ .backtrack expression rule x i start :: behind →
    start ≤ i ∧ ∃ before', before = before' ++ [.symbolTried x false i]

theorem backtracksFollow_singleton {ev : Event}
    (h : ∀ expression rule x i start, ev ≠ .backtrack expression rule x i start) :
    BacktracksFollow [ev] := by
  intro before expression rule x i start behind heq
  cases before with
  | nil =>
    obtain ⟨rfl, -⟩ := List.cons.inj heq
    exact absurd rfl (h expression rule x i start)
  | cons ev' before => simp at heq

theorem BacktracksFollow.append {evs evs' : List Event} (h : BacktracksFollow evs)
    (h' : BacktracksFollow evs') : BacktracksFollow (evs ++ evs') := by
  intro before expression rule x i start behind heq
  rcases List.append_eq_append_iff.1 heq with ⟨mid, rfl, heq'⟩ | ⟨mid, rfl, heq'⟩
  · -- in the second list, where the report before it is as well
    obtain ⟨hle, before', rfl⟩ := h' mid expression rule x i start behind heq'
    exact ⟨hle, evs ++ before', (List.append_assoc ..).symm⟩
  · cases mid with
    | nil =>
      obtain ⟨hle, before', hbefore'⟩ :=
        h' [] expression rule x i start behind (by simpa using heq'.symm)
      simp at hbefore'
    | cons ev mid =>
      obtain ⟨rfl, rfl⟩ := List.cons.inj heq'
      exact h before expression rule x i start mid rfl

theorem BacktracksFollow.backtrack {evs : List Event} {x : Symbol} {i start : Nat}
    (h : BacktracksFollow (evs ++ [.symbolTried x false i])) (hle : start ≤ i)
    (expression : String) (rule : List Symbol) :
    BacktracksFollow
      (evs ++ [.symbolTried x false i] ++ [.backtrack expression rule x i start]) := by
  intro before expression' rule' x' i' start' behind heq
  rcases List.eq_nil_or_concat behind with rfl | ⟨behind, last, rfl⟩
  · obtain ⟨rfl, hev⟩ := List.append_inj' heq rfl
    cases hev
    exact ⟨hle, evs, rfl⟩
  · have hsplit : evs ++ [.symbolTried x false i] ++ [.backtrack expression rule x i start] =
        (before ++ .backtrack expression' rule' x' i' start' :: behind) ++ [last] := by
      simpa using heq
    exact h before expression' rule' x' i' start' behind (List.append_inj' hsplit rfl).1

/-- What is told of a symbol that has failed ends in the report of its failure. -/
theorem Tells.exists_symbolTried {g : Grammar τ} {e : Expression τ} {x : Symbol} {i : Nat}
    {evs : List Event} (h : Tells (.symbol g e x) i none evs) :
    ∃ evs', evs = evs' ++ [.symbolTried x false i] := by
  generalize ho : (none : Option Nat) = o at h
  cases h with
  | terminal =>
    subst ho
    exact ⟨[], rfl⟩
  | reference =>
    rw [← ho]
    exact ⟨_, rfl⟩

/-- **A rule is given up right after one of its symbols has failed.** -/
theorem Tells.backtracksFollow {T : Topic τ} {i : Nat} {o : Option Nat} {evs : List Event}
    (h : Tells T i o evs) : BacktracksFollow evs := by
  have hnil : BacktracksFollow [] := by
    intro before expression rule x i start behind heq
    simp at heq
  induction h with
  | matched _ ih | chosen _ ih | givenUp _ ih | lastRound _ _ ih => exact ih
  | noRule | done => exact hnil
  | failed _ ih | completed _ ih | reference _ _ _ ih =>
    exact ih.append (backtracksFollow_singleton (by simp [Event.ofSymbol]))
  | terminal => exact backtracksFollow_singleton (by simp [Event.ofSymbol])
  | nextRule _ _ ih ih' | nextSymbol _ _ _ ih ih' | nextRound _ _ _ ih ih' => exact ih.append ih'
  | backtrack hx _ hle ih =>
    obtain ⟨evs', rfl⟩ := hx.exists_symbolTried
    exact ih.backtrack hle _ _

/-! ### The engine -/

/-- What has been reported from one machine to the other tells of the topic, with this end. -/
def Reports (T : Topic τ) (m : Machine τ) (o : Option Nat) (m' : Machine τ) : Prop :=
  ∃ evs, eventsOf m'.log = eventsOf m.log ++ evs ∧ Tells T m.cursor o evs

namespace Attempt

variable {α : Type}

/-- Where an attempt has matched up to, or that it has failed, unless it has broken off. -/
def stop? (r : Attempt τ α) : Option (Option Nat) :=
  match r with
  | ⟨.matched _, m⟩ => some (some m.cursor)
  | ⟨.mismatch, _⟩ => some none
  | _ => none

/-- What an attempt that was begun with a machine has reported tells of the topic. -/
def IsTold (T : Topic τ) (m : Machine τ) (r : Attempt τ α) : Prop :=
  ∀ o, r.stop? = some o → Reports T m o r.machine

variable {T : Topic τ} {m m' : Machine τ}

theorem isTold_matched {a : α} (h : Reports T m (some m'.cursor) m') :
    IsTold T m ⟨.matched a, m'⟩ := by
  rintro _ ⟨⟩
  exact h

theorem isTold_mismatch (h : Reports T m none m') :
    IsTold T m (⟨.mismatch, m'⟩ : Attempt τ α) := by
  rintro _ ⟨⟩
  exact h

theorem isTold_error {x : GrammarError} : IsTold T m (⟨.error x, m'⟩ : Attempt τ α) := nofun

theorem isTold_endless : IsTold T m (⟨.endless, m'⟩ : Attempt τ α) := nofun

/-- What a repetition has reported tells of rounds.  It never fails, and it has not moved if there
are no items. -/
def AreTold (g : Grammar τ) (e : Expression τ) (m : Machine τ) (r : Attempt τ (List Value)) :
    Prop :=
  match r with
  | ⟨.matched vs, m'⟩ => (vs = [] → m'.cursor = m.cursor) ∧
      Reports (.rounds g e) m (if vs.isEmpty then none else some m'.cursor) m'
  | ⟨.mismatch, _⟩ => False
  | _ => True

end Attempt

/-- Every expression that is matched is reported as a frame. -/
def Matcher.IsTold (call : Matcher τ) : Prop := ∀ g e m, (call g e m).IsTold (.frame g e) m

section

variable {T T' U : Topic τ} {m m' m'' : Machine τ} {o o' o'' : Option Nat}

/-- What is reported in addition. -/
theorem Reports.report (h : Reports T m o m') {ev : Event}
    (hU : ∀ evs, Tells T m.cursor o evs → Tells U m.cursor o' (evs ++ [ev])) :
    Reports U m o' (m'.report ev) := by
  obtain ⟨evs, hevs, htells⟩ := h
  refine ⟨evs ++ [ev], ?_, hU evs htells⟩
  rw [Machine.report, eventsOf_cons, hevs, List.append_assoc]

/-- What is reported one after the other. -/
theorem Reports.trans (h : Reports T m o m') (h' : Reports T' m' o' m'')
    (hU : ∀ evs evs', Tells T m.cursor o evs → Tells T' m'.cursor o' evs' →
      Tells U m.cursor o'' (evs ++ evs')) : Reports U m o'' m'' := by
  obtain ⟨evs, hevs, htells⟩ := h
  obtain ⟨evs', hevs', htells'⟩ := h'
  refine ⟨evs ++ evs', ?_, hU evs evs' htells htells'⟩
  rw [hevs', hevs, List.append_assoc]

theorem Reports.mono (h : Reports T m o m')
    (hU : ∀ evs, Tells T m.cursor o evs → Tells U m.cursor o' evs) : Reports U m o' m' := by
  obtain ⟨evs, hevs, htells⟩ := h
  exact ⟨evs, hevs, hU evs htells⟩

end

theorem eventsOf_recordTransform (args : List Value) (c : Context τ) (m : Machine τ) :
    eventsOf (recordTransform args c m).log = eventsOf m.log := by
  unfold recordTransform
  split
  · exact eventsOf_cons_call _
  · rfl

section

variable {call : Matcher τ} {g : Grammar τ} {e : Expression τ}
  (hx : call.Exact) (hcall : call.IsTold)
include hx hcall

theorem areTold_matchRepeatedly (bound : Nat) (m : Machine τ) :
    (matchRepeatedly (call g e) bound m).AreTold g e m := by
  induction bound generalizing m with
  | zero => trivial
  | succ bound ih =>
    have hxm := hx g e m
    have hm := hcall g e m
    unfold matchRepeatedly
    generalize call g e m = r at hxm hm
    obtain ⟨o, m'⟩ := r
    cases o with
    | matched v =>
      have hframe : Reports (.frame g e) m (some m'.cursor) m' := hm _ rfl
      dsimp only
      by_cases hc : m'.cursor = m.cursor
      · rw [if_pos hc]
        refine ⟨by simp, hframe.mono fun evs h => .lastRound h ?_⟩
        rintro _ ⟨⟩
        exact hc
      · rw [if_neg hc]
        have hle : m.cursor ≤ m'.cursor := hxm.reaches.offset_le
        have hrest := ih m'
        generalize matchRepeatedly (call g e) bound m' = r' at hrest
        obtain ⟨o', m''⟩ := r'
        cases o' with
        | matched vs =>
          obtain ⟨hstay, hrounds⟩ := hrest
          refine ⟨by simp, hframe.trans hrounds fun evs evs' h h' => ?_⟩
          have hon := h.nextRound (by omega) h'
          -- without any more items the rounds have ended where this one has
          cases vs with
          | nil => exact hstay rfl ▸ hon
          | cons v' vs => exact hon
        | mismatch => exact hrest
        | error x => trivial
        | endless => trivial
    | mismatch =>
      have hp : m'.position = m.position := hxm.1
      exact ⟨fun _ => congrArg Position.offset hp,
        (hm _ rfl).mono fun evs h => .lastRound h (by simp)⟩
    | error x => trivial
    | endless => trivial

/-- What is told of an expression under a quantifier, before the quantifier settles it. -/
theorem reports_matchQuantified (q : Quantifier) (m : Machine τ) :
    ∀ o', (matchQuantified (call g e) q m).stop? = some o' → ∃ o, o' = q.settle m.cursor o ∧
      Reports (q.topic g e) m o (matchQuantified (call g e) q m).machine := by
  have hxm := hx g e m
  have hm := hcall g e m
  have hrounds := areTold_matchRepeatedly (g := g) (e := e) hx hcall
    (m.position.rest.length + 1) m
  have hlist : ∀ q : Quantifier, q.isRepeating = true → ∀ o', Attempt.stop?
      ((matchRepeatedly (call g e) (m.position.rest.length + 1) m).andThen fun vs m' =>
        if vs.isEmpty && !q.allowsNone then ⟨.mismatch, m'.moveTo m.position⟩
        else ⟨.matched (Value.list vs), m'⟩) = some o' → ∃ o, o' = q.settle m.cursor o ∧
      Reports (q.topic g e) m o
        ((matchRepeatedly (call g e) (m.position.rest.length + 1) m).andThen fun vs m' =>
          if vs.isEmpty && !q.allowsNone then ⟨.mismatch, m'.moveTo m.position⟩
          else ⟨.matched (Value.list vs), m'⟩).machine := by
    intro q hq o' ho'
    have htopic : q.topic g e = .rounds g e := if_pos hq
    rw [htopic]
    generalize matchRepeatedly (call g e) (m.position.rest.length + 1) m = r at hrounds ho'
    obtain ⟨o, m'⟩ := r
    cases o with
    | matched vs =>
      obtain ⟨hstay, hreports⟩ := hrounds
      cases vs with
      | nil =>
        cases hn : q.allowsNone with
        | false =>
          rw [hn] at ho'
          cases ho'
          exact ⟨none, by simp [Quantifier.settle, hn], hreports⟩
        | true =>
          rw [hn] at ho'
          cases ho'
          refine ⟨none, ?_, hreports⟩
          simp [Quantifier.settle, hn, hstay]
      | cons v vs =>
        cases ho'
        exact ⟨_, rfl, hreports⟩
    | mismatch => exact hrounds.elim
    | error x => cases ho'
    | endless => cases ho'
  cases q with
  | one =>
    intro o' ho'
    exact ⟨o', by simp [Quantifier.settle, Quantifier.allowsNone], hm o' ho'⟩
  | optional =>
    intro o' ho'
    unfold matchQuantified at ho' ⊢
    generalize call g e m = r at hxm hm ho'
    obtain ⟨o, m'⟩ := r
    cases o with
    | matched v =>
      cases ho'
      exact ⟨_, rfl, hm _ rfl⟩
    | mismatch =>
      cases ho'
      have hp : m'.position = m.position := hxm.1
      exact ⟨none, congrArg some (congrArg Position.offset hp), hm _ rfl⟩
    | error x => cases ho'
    | endless => cases ho'
  | zeroOrMore => exact hlist .zeroOrMore rfl
  | oneOrMore => exact hlist .oneOrMore rfl

omit hx hcall in
/-- A symbol is reported with where it has matched up to, or at the place where it was tried. -/
theorem isTold_reportSymbol {x : Symbol} {m : Machine τ} {r : Attempt τ Value}
    (hxr : r.Exact m.position m.depth)
    (h : ∀ o, r.stop? = some o → ∃ evs, eventsOf r.machine.log = eventsOf m.log ++ evs ∧
      Tells (.symbol g e x) m.cursor o (evs ++ [.ofSymbol x m.cursor o])) :
    (reportSymbol x r).IsTold (.symbol g e x) m := by
  obtain ⟨o, m'⟩ := r
  have hlog : ∀ {evs : List Event} (ev : Event), eventsOf m'.log = eventsOf m.log ++ evs →
      eventsOf (m'.report ev).log = eventsOf m.log ++ (evs ++ [ev]) := by
    intro evs ev hevs
    rw [Machine.report, eventsOf_cons, hevs, List.append_assoc]
  cases o with
  | matched v =>
    obtain ⟨evs, hevs, htells⟩ := h _ rfl
    exact Attempt.isTold_matched ⟨_, hlog _ hevs, htells⟩
  | mismatch =>
    obtain ⟨evs, hevs, htells⟩ := h _ rfl
    have hp : m'.cursor = m.cursor := congrArg Position.offset hxr.1
    exact Attempt.isTold_mismatch ⟨_, hlog _ hevs, hp ▸ htells⟩
  | error x => exact Attempt.isTold_error
  | endless => exact Attempt.isTold_endless

theorem isTold_matchSymbol (x : Symbol) (m : Machine τ) :
    (matchSymbol call g e x m).IsTold (.symbol g e x) m := by
  have hterminal : ∀ t : Terminal, (∀ ref, x.kind ≠ .reference ref) →
      ∀ o, (matchTerminal t x.quantifier m).stop? = some o →
      ∃ evs, eventsOf (matchTerminal t x.quantifier m).machine.log = eventsOf m.log ++ evs ∧
        Tells (.symbol g e x) m.cursor o (evs ++ [.ofSymbol x m.cursor o]) := by
    intro t hk o ho
    have hreaches := (exact_matchTerminal t x.quantifier m).reaches
    refine ⟨[], by rw [log_matchTerminal, List.append_nil], .terminal hk fun j hj => ?_⟩
    subst hj
    generalize matchTerminal t x.quantifier m = r at ho hreaches
    obtain ⟨o, m'⟩ := r
    cases o <;> cases ho
    exact hreaches.offset_le
  refine isTold_reportSymbol (exact_matchKind hx x m) fun o ho => ?_
  unfold matchKind at ho ⊢
  cases hk : x.kind with
  | literal text =>
    simp only [hk] at ho ⊢
    exact hterminal _ (by simp [hk]) o ho
  | pattern c =>
    simp only [hk] at ho ⊢
    exact hterminal _ (by simp [hk]) o ho
  | reference ref =>
    simp only [hk] at ho ⊢
    cases hr : g.resolve ref e.name with
    | error err =>
      rw [hr] at ho
      cases ho
    | ok n =>
      simp only [hr] at ho ⊢
      obtain ⟨o', rfl, evs, hevs, htells⟩ := reports_matchQuantified hx hcall x.quantifier m o ho
      exact ⟨evs, hevs, .reference hk hr htells⟩

omit hx hcall in
/-- The symbols behind one that has been tried, in a rule that goes on from a place. -/
theorem isTold_cons {rule : Rule τ} {x : Symbol} {xs : List Symbol} {start : Nat} {v : Value}
    {m m' k : Machine τ} {o : Option Nat} {r : Attempt τ (List Value)}
    (hsymbol : Reports (.symbol g e x) m o m')
    (hnext : x.lookahead.next m.cursor o = some k.cursor) (hlog : k.log = m'.log)
    (hr : r.IsTold (.symbols g e rule start xs) k) :
    (r.andThen fun vs m'' => ⟨.matched (v :: vs), m''⟩).IsTold
      (.symbols g e rule start (x :: xs)) m := by
  have hbefore : Reports (.symbol g e x) m o k := by
    obtain ⟨evs, hevs, htells⟩ := hsymbol
    exact ⟨evs, hlog ▸ hevs, htells⟩
  obtain ⟨o', m''⟩ := r
  cases o' with
  | matched vs =>
    exact Attempt.isTold_matched (hbefore.trans (hr _ rfl) fun _ _ h h' => h.nextSymbol hnext h')
  | mismatch =>
    exact Attempt.isTold_mismatch (hbefore.trans (hr _ rfl) fun _ _ h h' => h.nextSymbol hnext h')
  | error x => exact Attempt.isTold_error
  | endless => exact Attempt.isTold_endless

theorem isTold_matchSymbols (rule : Rule τ) {start : Position} (xs : List Symbol) (m : Machine τ)
    (hm : start.Reaches m.position) : (matchSymbols call g e rule start xs m).IsTold
      (.symbols g e rule start.offset xs) m := by
  induction xs generalizing m with
  | nil => exact Attempt.isTold_matched ⟨[], (List.append_nil _).symm, .done⟩
  | cons x xs ih =>
    have hxm := exact_matchSymbol (g := g) (e := e) hx x (m.atSymbol x)
    have hsymbol := isTold_matchSymbol (g := g) (e := e) hx hcall x (m.atSymbol x)
    unfold matchSymbols
    generalize matchSymbol call g e x (m.atSymbol x) = r at hxm hsymbol
    obtain ⟨o, m'⟩ := r
    have hback := ih (m'.moveTo m.position) hm
    cases o with
    | matched v =>
      have hmatched : Reports (.symbol g e x) m (some m'.cursor) m' := hsymbol _ rfl
      have hp : m.position.Reaches m'.position := hxm.1
      cases hl : x.lookahead with
      | consume =>
        exact isTold_cons hmatched (by simp [hl, Lookahead.next]) rfl (ih m' (hm.trans hp))
      | assert => exact isTold_cons (k := m'.moveTo m.position) hmatched (by rw [hl]; rfl) rfl hback
      | lenient =>
        exact isTold_cons hmatched (by simp [hl, Lookahead.next]) rfl (ih m' (hm.trans hp))
    | mismatch =>
      have hfailed : Reports (.symbol g e x) m none m' := hsymbol _ rfl
      have hp : m'.cursor = m.cursor := congrArg Position.offset hxm.1
      have hgive : x.lookahead ≠ .lenient →
          Attempt.IsTold (.symbols g e rule start.offset (x :: xs)) m
            (⟨.mismatch, giveUp e rule start x m'⟩ : Attempt τ (List Value)) := by
        intro hl
        have hreport : Reports (.symbols g e rule start.offset (x :: xs)) m none
            (m'.report (.backtrack e.name rule.symbols x m'.cursor start.offset)) := by
          rw [hp]
          exact hfailed.report fun _ h => h.backtrack hl hm.offset_le
        exact Attempt.isTold_mismatch hreport
      cases hl : x.lookahead with
      | consume => exact hgive (by simp [hl])
      | assert => exact hgive (by simp [hl])
      | lenient => exact isTold_cons (k := m'.moveTo m.position) hfailed (by rw [hl]; rfl) rfl hback
    | error err => cases x.lookahead <;> exact Attempt.isTold_error
    | endless => cases x.lookahead <;> exact Attempt.isTold_endless

theorem isTold_matchRule (s : Setting τ) (rule : Rule τ) (m : Machine τ) :
    (matchRule s call g e rule m).IsTold (.attempt g e rule) m := by
  have h := isTold_matchSymbols (g := g) (e := e) hx hcall rule rule.symbols (m.atRule rule)
    (.refl m.position)
  unfold matchRule
  generalize matchSymbols call g e rule m.position rule.symbols (m.atRule rule) = r at h
  obtain ⟨o, m'⟩ := r
  cases o with
  | matched args =>
    let c : Context τ := ⟨g, e, rule, s.input, m.position, m'.position⟩
    have hsymbols : Reports (.symbols g e rule m.cursor rule.symbols) m (some m'.cursor)
        (recordTransform args c m') := by
      obtain ⟨evs, hevs, htells⟩ := h _ rfl
      exact ⟨evs, (eventsOf_recordTransform ..).trans hevs, htells⟩
    have hend : (finishRule s args c m').machine.cursor = m'.cursor :=
      congrArg Position.offset (finishRule_position s args c m')
    refine Attempt.isTold_matched ?_
    change Reports _ m (some (finishRule s args c m').machine.cursor) _
    rw [hend]
    exact hsymbols.report fun _ h => h.completed
  | mismatch => exact Attempt.isTold_mismatch ((h _ rfl).mono fun _ h => h.givenUp)
  | error x => exact Attempt.isTold_error
  | endless => exact Attempt.isTold_endless

theorem isTold_matchRules (s : Setting τ) (rules : List (Rule τ)) (m : Machine τ) :
    (matchRules s call g e rules m).IsTold (.rules g e rules) m := by
  induction rules generalizing m with
  | nil => exact Attempt.isTold_mismatch ⟨[], (List.append_nil _).symm, .noRule⟩
  | cons rule rules ih =>
    have hxm := exact_matchRule (g := g) (e := e) s hx rule m
    have h := isTold_matchRule (g := g) (e := e) hx hcall s rule m
    unfold matchRules
    generalize matchRule s call g e rule m = r at hxm h
    obtain ⟨o, m'⟩ := r
    cases o with
    | matched v => exact Attempt.isTold_matched ((h _ rfl).mono fun _ h => h.chosen)
    | mismatch =>
      -- the next rule is tried from the place where this one was begun
      have hp : m'.cursor = m.cursor := congrArg Position.offset hxm.1
      intro o ho
      exact (h _ rfl).trans (ih m' o ho) fun _ _ h h' => h.nextRule (hp ▸ h')
    | error x => exact Attempt.isTold_error
    | endless => exact Attempt.isTold_endless

theorem isTold_matchInside (s : Setting τ) (g : Grammar τ) (e : Expression τ) (m : Machine τ) :
    (matchInside s call g e m).IsTold (.frame g e) m := by
  have hxm := exact_matchRules (g := g) (e := e) s hx e.rules (m.enter e)
  have h := isTold_matchRules (g := g) (e := e) hx hcall s e.rules (m.enter e)
  unfold matchInside
  generalize matchRules s call g e e.rules (m.enter e) = r at hxm h
  obtain ⟨o, m'⟩ := r
  cases o with
  | matched v =>
    have hrules : Reports (.rules g e e.rules) m (some m'.cursor) (m'.leave m.focus) := h _ rfl
    exact Attempt.isTold_matched (hrules.mono fun _ h => h.matched)
  | mismatch =>
    have hp : m'.cursor = m.cursor := congrArg Position.offset hxm.1
    have hrules : Reports (.rules g e e.rules) m none m' := h _ rfl
    have hfailed : Reports (.frame g e) m none
        (m'.report (.noRuleMatched e.name g.name m'.cursor)) := by
      rw [hp]
      exact hrules.report fun _ h => h.failed
    exact Attempt.isTold_mismatch hfailed
  | error x => exact Attempt.isTold_error
  | endless => exact Attempt.isTold_endless

end

/-- **Every expression that is matched is reported as a frame.** -/
theorem isTold_matchExpression (s : Setting τ) (bound : Nat) :
    (matchExpression s bound).IsTold := by
  induction bound with
  | zero => exact fun _ _ _ => Attempt.isTold_endless
  | succ bound ih =>
    intro g e m
    have hinside := isTold_matchInside (exact_matchExpression s bound) ih s g e m
    unfold matchExpression
    split
    · exact hinside
    · split
      · exact Attempt.isTold_error
      · exact hinside

/-! ### Parses -/

/-- The reports at the end of a parse of a text of some length, by where its root expression has
matched up to. -/
def Config.closing (config : Config) (length : Nat) : Option Nat → List Event
  | none => [.parseFinished false 0]
  | some j =>
    if config.requireFullMatch && j < length then
      [.remainderRejected j length, .parseFinished false j]
    else [.parseFinished true j]

theorem Config.backtracksFollow_closing (config : Config) (length : Nat) (o : Option Nat) :
    BacktracksFollow (config.closing length o) := by
  cases o with
  | none => exact backtracksFollow_singleton (by simp)
  | some j =>
    have hrejected : BacktracksFollow [.remainderRejected j length] :=
      backtracksFollow_singleton (by simp)
    have hfinished : ∀ matched, BacktracksFollow [.parseFinished matched j] := fun _ =>
      backtracksFollow_singleton (by simp)
    unfold closing
    dsimp only
    split
    · exact hrejected.append (hfinished false)
    · exact hfinished true

namespace Session

variable (s : Session τ) (input : String)

/-- A parse that ends in no error has matched its root expression, or has failed with it. -/
theorem exists_stop? {length : Nat} {r : Attempt τ Value} {start : Position} {depth : Nat}
    (hx : r.Exact start depth) (hends : (s.checkRemainder length r).outcome = .mismatch ∨
      ∃ v, (s.checkRemainder length r).outcome = .matched v) :
    ∃ o, r.stop? = some o ∧ (o = none → r.machine.position = start) := by
  obtain ⟨out, m⟩ := r
  cases out with
  | matched v => exact ⟨_, rfl, nofun⟩
  | mismatch => exact ⟨_, rfl, fun _ => hx.1⟩
  | error x => simp [checkRemainder] at hends
  | endless => simp [checkRemainder] at hends

/-- What is reported after the root expression, unless the parse has broken off. -/
theorem eventsOf_checkRemainder {text : List Char} (length : Nat) {r : Attempt τ Value}
    {o : Option Nat} (ho : r.stop? = some o)
    (hfailed : o = none → r.machine.position = .start text) :
    let report := Report.ofAttempt (s.checkRemainder length r)
    eventsOf report.log = eventsOf r.machine.log ++ s.config.closing length o ∧
      (s.config.closing length o).getLast? =
        some (.parseFinished report.outcome.isMatch (o.getD 0)) := by
  obtain ⟨out, m⟩ := r
  cases out with
  | matched v =>
    cases ho
    simp only [checkRemainder, Attempt.andThen_matched, Config.closing]
    split
    · simp [Report.ofAttempt, eventsOf_cons, Machine.report, Outcome.isMatch, Machine.cursor]
    · simp [Report.ofAttempt, eventsOf_cons, Outcome.isMatch]
  | mismatch =>
    cases ho
    have hcursor : m.cursor = 0 := congrArg Position.offset (hfailed rfl)
    simp [checkRemainder, Report.ofAttempt, eventsOf_cons, Outcome.isMatch, hcursor, Config.closing]
  | error x => cases ho
  | endless => cases ho

/-- **The events of a parse are a derivation.**  If a parse ends in no error then it has reported
its start, one frame of the root expression, and its end.  Wherever a rule is given up, the report
right before is that its symbol has failed, and the cursor goes back from there. -/
theorem events_tell
    (hends : (s.parse input).1.outcome = .mismatch ∨ ∃ v, (s.parse input).1.outcome = .matched v) :
    let report := (s.parse input).1
    let length := byteLength input.toList
    (∃ e o evs, s.grammar.root? = some e ∧ Tells (.frame s.grammar e) 0 o evs ∧
      eventsOf report.log =
        .parseStarted s.grammar.name length :: (evs ++ s.config.closing length o) ∧
      (s.config.closing length o).getLast? =
        some (.parseFinished report.outcome.isMatch (o.getD 0))) ∧
    BacktracksFollow (eventsOf report.log) := by
  intro report length
  cases he : s.grammar.root? with
  | none => simp [report_parse, matchRoot, he, Report.ofAttempt] at hends
  | some e =>
    let r := s.rootAttempt input.toList e
    have hreport : report = .ofAttempt (s.checkRemainder length r) :=
      congrArg Report.ofAttempt (matchRoot_eq s input.toList he)
    have htold : r.IsTold (.frame s.grammar e) (s.startMachine input.toList) :=
      isTold_matchExpression _ _ _ _ _
    have hexact : r.Exact (.start input.toList) 0 := exact_matchExpression _ _ _ _ _
    have hends : (s.checkRemainder length r).outcome = .mismatch ∨
        ∃ v, (s.checkRemainder length r).outcome = .matched v := by
      rw [show (s.parse input).1 = _ from hreport] at hends
      exact hends
    obtain ⟨o, ho, hfailed⟩ := s.exists_stop? hexact hends
    obtain ⟨evs, hevs, htells⟩ := htold o ho
    obtain ⟨hall, hlast⟩ := s.eventsOf_checkRemainder length ho hfailed
    have hstart : eventsOf (s.startMachine input.toList).log =
      [.parseStarted s.grammar.name length] := rfl
    rw [← hreport] at hall hlast
    rw [hevs, hstart] at hall
    refine ⟨⟨e, o, evs, rfl, htells, by simpa using hall, hlast⟩, ?_⟩
    rw [hall]
    have hstarted : BacktracksFollow [.parseStarted s.grammar.name length] :=
      backtracksFollow_singleton (by simp)
    exact (hstarted.append htells.backtracksFollow).append (s.config.backtracksFollow_closing _ _)

/-- Inside the brackets another bracket is tried and given up at its first symbol. -/
theorem events_tell_brackets :
    let events := eventsOf (bracketSession.parse "()").1.log
    (∃ rule, events[11]? = some (.backtrack "bracket" rule (.literal "(") 1 1)) ∧
    BacktracksFollow events ∧ ∃ o evs, Tells (.frame brackets bracket) 0 o evs ∧
      events = .parseStarted "brackets" 2 :: (evs ++ Config.default.closing 2 o) := by
  intro events
  obtain ⟨⟨e, o, evs, he, htells, hevents, -⟩, hfollow⟩ :=
    events_tell bracketSession "()" (.inr ⟨_, rfl⟩)
  obtain rfl : bracket = e := Option.some.inj he
  exact ⟨⟨_, rfl⟩, hfollow, o, evs, htells, hevents⟩

end Session

end OrderedChoice
