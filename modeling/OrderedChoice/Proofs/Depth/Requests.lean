import OrderedChoice.Proofs.Repetition

/-!
# What a run asks of the matcher

The functions of the engine are given the matcher of expressions that they call.  A `Request` is
one such call, and `requestsInside s call q` lists those that are made directly while the rules of
an expression are tried, in the order in which they are made.

`Makes call m qs F` says that the list is right for a function `F` of the matcher: `F` depends on
nothing but the answers to `qs`, and it breaks off as soon as one of them does.  It also says that
requests are made at the depth of the machine `m` that `F` begins with, at places ahead of it, and
with all that has been logged so far.  The lemmas `makes_…` show it of the functions of the engine
one by one, from `Makes.bind`; the last is `makes_matchInside`.
-/

namespace OrderedChoice

variable {τ α β : Type}

/-! ### Requests -/

/-- A call of the matcher. -/
structure Request (τ : Type) where
  grammar : Grammar τ
  expression : Expression τ
  machine : Machine τ

/-- What a matcher makes of a request. -/
def Matcher.answer (call : Matcher τ) (q : Request τ) : Attempt τ Value :=
  call q.grammar q.expression q.machine

/-- The rounds in which an expression is matched under a quantifier. -/
def tries (one : Machine τ → Attempt τ Value) (q : Quantifier) (m : Machine τ) : List (Round τ) :=
  if q.isRepeating then rounds one (m.position.rest.length + 1) m else [⟨m, one m⟩]

/-- The requests for an expression in rounds. -/
def Request.ofRounds (g : Grammar τ) (e : Expression τ) (rs : List (Round τ)) : List (Request τ) :=
  rs.map fun r => ⟨g, e, r.before⟩

/-- The requests of a symbol: those for the expression that it refers to. -/
def requestsOfSymbol (call : Matcher τ) (g : Grammar τ) (e : Expression τ) (x : Symbol)
    (m : Machine τ) : List (Request τ) :=
  match x.kind with
  | .reference ref =>
    match g.resolve ref e.name with
    | .ok (g', e') => Request.ofRounds g' e' (tries (call g' e') x.quantifier m)
    | .error _ => []
  | _ => []

/-- The requests of the symbols of a rule, up to the one at which it is given up. -/
def requestsOfSymbols (call : Matcher τ) (g : Grammar τ) (e : Expression τ) :
    List Symbol → Machine τ → List (Request τ)
  | [], _ => []
  | x :: xs, m =>
    requestsOfSymbol call g e x (m.atSymbol x) ++
      (applyLookahead x.lookahead m.position (matchSymbol call g e x (m.atSymbol x))).ifMatched
        fun _ m' => requestsOfSymbols call g e xs m'

/-- The requests of rules, up to the first that matches. -/
def requestsOfRules (s : Setting τ) (call : Matcher τ) (g : Grammar τ) (e : Expression τ) :
    List (Rule τ) → Machine τ → List (Request τ)
  | [], _ => []
  | rule :: rules, m =>
    requestsOfSymbols call g e rule.symbols (m.atRule rule) ++
      (matchRule s call g e rule m).ifMismatch fun m' => requestsOfRules s call g e rules m'

/-- The requests that are made while the rules of an expression are tried. -/
def requestsInside (s : Setting τ) (call : Matcher τ) (q : Request τ) : List (Request τ) :=
  requestsOfRules s call q.grammar q.expression q.expression.rules (q.machine.enter q.expression)

/-! ### Breaking off -/

/-- How a run breaks off: with an error, or with none where expressions nest without end. -/
structure Halt (τ : Type) where
  error? : Option GrammarError
  position : Position
  log : List (Entry τ)

/-- How an attempt breaks off, if it does. -/
def Attempt.halt? (r : Attempt τ α) : Option (Halt τ) :=
  match r with
  | ⟨.error x, m⟩ => some ⟨some x, m.position, m.log⟩
  | ⟨.endless, m⟩ => some ⟨none, m.position, m.log⟩
  | _ => none

/-- The change of an attempt leaves alone how it breaks off. -/
def Attempt.PassesHalt (f : Attempt τ α → Attempt τ β) : Prop :=
  ∀ r h, r.halt? = some h → (f r).halt? = some h

theorem Attempt.passesHalt_andThen (f : α → Machine τ → Attempt τ β) :
    PassesHalt fun r : Attempt τ α => r.andThen f := by
  rintro ⟨o, m⟩ h hh
  cases o <;> cases hh <;> rfl

theorem Attempt.passesHalt_orElse (f : Machine τ → Attempt τ α) :
    PassesHalt fun r : Attempt τ α => r.orElse f := by
  rintro ⟨o, m⟩ h hh
  cases o <;> cases hh <;> rfl

theorem Attempt.PassesHalt.comp {γ : Type} {f : Attempt τ β → Attempt τ γ}
    {f' : Attempt τ α → Attempt τ β} (hf : PassesHalt f) (hf' : PassesHalt f') :
    PassesHalt (f ∘ f') := fun r h hh => hf (f' r) h (hf' r h hh)

theorem Attempt.log_andThen_matched (r : Attempt τ α) (f : α → β) :
    (r.andThen fun a m => ⟨.matched (f a), m⟩).machine.log = r.machine.log := by
  obtain ⟨o, m⟩ := r
  cases o <;> rfl

theorem passesHalt_reportSymbol (x : Symbol) : Attempt.PassesHalt (reportSymbol (τ := τ) x) := by
  rintro ⟨o, m⟩ h hh
  cases o <;> cases hh <;> rfl

/-- What a repetition makes of a round, given what it makes of the rounds after it. -/
def afterRound (start : Machine τ) (more : Machine τ → Attempt τ (List Value)) :
    Attempt τ Value → Attempt τ (List Value)
  | ⟨.matched v, m⟩ =>
    if m.cursor = start.cursor then ⟨.matched [v], m⟩
    else (more m).andThen fun vs m' => ⟨.matched (v :: vs), m'⟩
  | ⟨.mismatch, m⟩ => ⟨.matched [], m⟩
  | ⟨.error e, m⟩ => ⟨.error e, m⟩
  | ⟨.endless, m⟩ => ⟨.endless, m⟩

theorem matchRepeatedly_succ (one : Machine τ → Attempt τ Value) (bound : Nat) (m : Machine τ) :
    matchRepeatedly one (bound + 1) m = afterRound m (matchRepeatedly one bound) (one m) := by
  rw [matchRepeatedly]
  rcases one m with ⟨o, m'⟩
  cases o <;> rfl

theorem passesHalt_afterRound (start : Machine τ) (more : Machine τ → Attempt τ (List Value)) :
    Attempt.PassesHalt (afterRound start more) := by
  rintro ⟨o, m⟩ h hh
  cases o <;> cases hh <;> rfl

theorem passesHalt_applyLookahead (l : Lookahead) (p : Position) :
    Attempt.PassesHalt (applyLookahead (τ := τ) l p) := by
  cases l with
  | consume => exact fun _ _ hh => hh
  | assert => exact Attempt.passesHalt_andThen _
  | lenient => exact Attempt.passesHalt_orElse _

/-! ### Lists of requests -/

/-- The second machine is one that a run can come to from the first at the same depth. -/
structure Machine.Precedes (m m' : Machine τ) : Prop where
  reaches : m.position.Reaches m'.position
  depth_eq : m'.depth = m.depth
  log_suffix : m.log <:+ m'.log

theorem Machine.Precedes.refl (m : Machine τ) : m.Precedes m := ⟨.refl _, rfl, List.suffix_rfl⟩

theorem Machine.Precedes.trans {m m' m'' : Machine τ} (h : m.Precedes m') (h' : m'.Precedes m'') :
    m.Precedes m'' :=
  ⟨h.reaches.trans h'.reaches, h'.depth_eq.trans h.depth_eq, h.log_suffix.trans h'.log_suffix⟩

/-- With the matcher `call` and begun with the machine `m`, the function makes the requests `qs`, in
this order. -/
structure Makes (call : Matcher τ) (m : Machine τ) (qs : List (Request τ))
    (F : Matcher τ → Attempt τ α) : Prop where
  /-- A matcher that answers them in the same way leads to the same attempt. -/
  same : ∀ call', (∀ q ∈ qs, call'.answer q = call.answer q) → F call' = F call
  /-- A matcher that breaks off at one, and answers those before it in the same way, leads to an
  attempt that breaks off there. -/
  halts : ∀ call' pre q post h, qs = pre ++ q :: post →
    (∀ q' ∈ pre, call'.answer q' = call.answer q') → (call'.answer q).halt? = some h →
    (F call').halt? = some h
  grows : m.log <:+ (F call).machine.log
  asked : ∀ q ∈ qs, m.Precedes q.machine ∧ (call.answer q).machine.log <:+ (F call).machine.log

variable {call : Matcher τ} {m m' : Machine τ} {qs qs' : List (Request τ)}
  {F : Matcher τ → Attempt τ α}

namespace Makes

/-- What does not depend on the matcher makes no requests. -/
theorem const {r : Attempt τ α} (h : m.log <:+ r.machine.log) : Makes call m [] fun _ => r where
  same := fun _ _ => rfl
  halts := by simp
  grows := h
  asked := by simp

/-- Requests that lead to an attempt, and others that depend on it. -/
theorem bind {r : Attempt τ α} {K : Attempt τ α → Matcher τ → Attempt τ β}
    (hF : Makes call m qs F) (hr : F call = r) (hK : Makes call m' qs' (K r)) (hm : m.Precedes m')
    (hlog : r.machine.log <:+ m'.log) (hhalt : ∀ c, Attempt.PassesHalt fun r => K r c) :
    Makes call m (qs ++ qs') fun c => K (F c) c := by
  subst hr
  constructor
  case same =>
    intro call' h
    have hsame : F call' = F call := hF.same call' fun q hq => h q (List.mem_append_left _ hq)
    simp only [hsame]
    exact hK.same call' fun q hq => h q (List.mem_append_right _ hq)
  case halts =>
    intro call' pre q post h heq hpre hq
    -- where the run breaks off in the second part, the first part is as it was
    have hsecond : ∀ pre', pre = qs ++ pre' → qs' = pre' ++ q :: post →
        (K (F call') call').halt? = some h := by
      rintro pre' rfl hqs'
      have hsame : F call' = F call := hF.same call' fun q hq => hpre q (List.mem_append_left _ hq)
      rw [hsame]
      exact hK.halts call' pre' q post h hqs'
        (fun q' hq' => hpre q' (List.mem_append_right _ hq')) hq
    rcases List.append_eq_append_iff.1 heq with ⟨pre', hpre', hqs'⟩ | ⟨mid, hqs, hpost⟩
    · exact hsecond pre' hpre' hqs'
    · cases mid with
      | nil => exact hsecond [] (by simpa using hqs.symm) (by simpa using hpost.symm)
      | cons q' mid =>
        obtain ⟨rfl, rfl⟩ := List.cons.inj hpost
        exact hhalt call' _ h (hF.halts call' pre q mid h hqs hpre hq)
  case grows => exact hF.grows.trans (hlog.trans hK.grows)
  case asked =>
    intro q hq
    rcases List.mem_append.1 hq with hq | hq
    · obtain ⟨hpre, hans⟩ := hF.asked q hq
      exact ⟨hpre, hans.trans (hlog.trans hK.grows)⟩
    · obtain ⟨hpre, hans⟩ := hK.asked q hq
      exact ⟨hm.trans hpre, hans⟩

/-- Requests after which the matcher does not matter. -/
theorem stop {r : Attempt τ α} {r' : Attempt τ β} {K : Attempt τ α → Matcher τ → Attempt τ β}
    (hF : Makes call m qs F) (hr : F call = r) (hK : ∀ c, K r c = r')
    (hlog : r.machine.log <:+ r'.machine.log) (hhalt : ∀ c, Attempt.PassesHalt fun r => K r c) :
    Makes call m qs fun c => K (F c) c := by
  -- nothing is asked of a machine that stands where `m` does and has logged what the attempt has
  have hnone : Makes call ⟨m.position, m.depth, m.focus, r.machine.log⟩ [] (K r) := by
    rw [funext hK]
    exact .const hlog
  have hgrows := hF.grows
  rw [hr] at hgrows
  have h := hF.bind hr hnone ⟨.refl _, rfl, hgrows⟩ List.suffix_rfl hhalt
  rwa [List.append_nil] at h

/-- An attempt that is only changed afterwards. -/
theorem map {f : Attempt τ α → Attempt τ β} (hF : Makes call m qs F)
    (hlog : (F call).machine.log <:+ (f (F call)).machine.log) (hhalt : Attempt.PassesHalt f) :
    Makes call m qs fun c => f (F c) :=
  hF.stop (K := fun r _ => f r) rfl (fun _ => rfl) hlog fun _ => hhalt

/-- The requests of a run may be told from a machine before its start. -/
theorem of_precedes (hF : Makes call m' qs F) (hm : m.Precedes m') : Makes call m qs F where
  same := hF.same
  halts := hF.halts
  grows := hm.log_suffix.trans hF.grows
  asked := fun q hq => ⟨hm.trans (hF.asked q hq).1, (hF.asked q hq).2⟩

end Makes

/-! ### The requests of the engine -/

/-- The matcher keeps what has been logged. -/
def Matcher.Logs (call : Matcher τ) : Prop := ∀ g e m, m.log <:+ (call g e m).machine.log

theorem log_reportError (m : Machine τ) (x : GrammarError) : m.log <:+ (m.reportError x).log := by
  unfold Machine.reportError
  split
  · exact List.suffix_cons _ _
  · exact List.suffix_rfl

theorem log_recordTransform (args : List Value) (c : Context τ) (m : Machine τ) :
    m.log <:+ (recordTransform args c m).log := by
  unfold recordTransform
  split
  · exact List.suffix_cons _ _
  · exact List.suffix_rfl

theorem log_matchTerminal (t : Terminal) (q : Quantifier) (m : Machine τ) :
    (matchTerminal t q m).machine.log = m.log := by
  unfold matchTerminal
  split <;> rfl

theorem log_reportSymbol (x : Symbol) (r : Attempt τ Value) :
    r.machine.log <:+ (reportSymbol x r).machine.log := by
  obtain ⟨o, m⟩ := r
  cases o with
  | matched v => exact List.suffix_cons _ _
  | mismatch => exact List.suffix_cons _ _
  | error x => exact List.suffix_rfl
  | endless => exact List.suffix_rfl

theorem log_applyLookahead (l : Lookahead) (p : Position) (r : Attempt τ Value) :
    (applyLookahead l p r).machine.log = r.machine.log := by
  obtain ⟨o, m⟩ := r
  cases l <;> cases o <;> rfl

theorem log_finishRule (s : Setting τ) (args : List Value) (c : Context τ) (m : Machine τ) :
    m.log <:+ (finishRule s args c m).machine.log :=
  (log_recordTransform args c m).trans (List.suffix_cons _ _)

variable {s : Setting τ} {g : Grammar τ} {e : Expression τ}

section

variable (hx : call.Exact) (hl : call.Logs)
include hl

theorem makes_call (g : Grammar τ) (e : Expression τ) (m : Machine τ) :
    Makes call m [⟨g, e, m⟩] fun c => c g e m where
  same := fun _ h => h _ List.mem_cons_self
  halts := by
    intro call' pre q post h heq _ hq
    obtain ⟨rfl, rfl, -⟩ : pre = [] ∧ q = ⟨g, e, m⟩ ∧ post = [] := by
      cases pre <;> simp_all
    exact hq
  grows := hl g e m
  asked := by
    intro q hq
    obtain rfl := List.mem_singleton.1 hq
    exact ⟨.refl m, List.suffix_rfl⟩

include hx

theorem makes_matchRepeatedly (g : Grammar τ) (e : Expression τ) (bound : Nat) (m : Machine τ) :
    Makes call m (Request.ofRounds g e (rounds (call g e) bound m))
      fun c => matchRepeatedly (c g e) bound m := by
  induction bound generalizing m with
  | zero => exact .const List.suffix_rfl
  | succ bound ih =>
    have hround : Makes call m [⟨g, e, m⟩] fun c => c g e m := makes_call hl g e m
    have hxm := hx g e m
    have hgrows := hl g e m
    simp only [matchRepeatedly_succ, rounds]
    rcases hr : call g e m with ⟨o, m'⟩
    rw [hr] at hxm hgrows
    let K : Attempt τ Value → Matcher τ → Attempt τ (List Value) :=
      fun r c => afterRound m (matchRepeatedly (c g e) bound) r
    have hpass : ∀ c, Attempt.PassesHalt fun r => K r c := fun c => passesHalt_afterRound m _
    cases o with
    | matched v =>
      simp only [Attempt.ifMatched_matched]
      by_cases hc : m'.cursor = m.cursor
      · rw [if_pos hc]
        exact hround.stop (K := K) hr (fun c => if_pos hc) List.suffix_rfl hpass
      · -- only a round that moves on is followed by others
        rw [if_neg hc]
        have hmore : Makes call m' (Request.ofRounds g e (rounds (call g e) bound m'))
            (K ⟨.matched v, m'⟩) := by
          simp only [K, afterRound, if_neg hc]
          exact (ih m').map (Attempt.log_andThen_matched _ _ ▸ List.suffix_rfl)
            (Attempt.passesHalt_andThen _)
        exact hround.bind (K := K) hr hmore ⟨hxm.1, hxm.2, hgrows⟩ List.suffix_rfl hpass
    | mismatch | error | endless =>
      exact hround.stop (K := K) hr (fun _ => rfl) List.suffix_rfl hpass

theorem makes_matchQuantified (g : Grammar τ) (e : Expression τ) (q : Quantifier)
    (m : Machine τ) : Makes call m (Request.ofRounds g e (tries (call g e) q m))
      fun c => matchQuantified (c g e) q m := by
  have hlist : ∀ allowed : Bool, Makes call m
      (Request.ofRounds g e (rounds (call g e) (m.position.rest.length + 1) m)) fun c =>
        (matchRepeatedly (c g e) (m.position.rest.length + 1) m).andThen fun vs m' =>
          if vs.isEmpty && !allowed then ⟨.mismatch, m'.moveTo m.position⟩
          else ⟨.matched (Value.list vs), m'⟩ := by
    intro allowed
    refine (makes_matchRepeatedly hx hl g e _ m).map ?_ (Attempt.passesHalt_andThen _)
    rcases matchRepeatedly (call g e) (m.position.rest.length + 1) m with ⟨o, m'⟩
    cases o with
    | matched vs =>
      rw [Attempt.andThen_matched]
      split <;> exact List.suffix_rfl
    | mismatch => exact List.suffix_rfl
    | error x => exact List.suffix_rfl
    | endless => exact List.suffix_rfl
  cases q with
  | one => exact makes_call hl g e m
  | optional =>
    refine (makes_call hl g e m).map ?_ (Attempt.passesHalt_orElse _)
    rcases call g e m with ⟨o, m'⟩
    cases o <;> exact List.suffix_rfl
  | zeroOrMore => exact hlist _
  | oneOrMore => exact hlist _

theorem makes_matchSymbol (x : Symbol) (m : Machine τ) :
    Makes call m (requestsOfSymbol call g e x m) fun c => matchSymbol c g e x m := by
  have hkind : Makes call m (requestsOfSymbol call g e x m) fun c => matchKind c g e x m := by
    unfold requestsOfSymbol matchKind
    cases hk : x.kind with
    | literal text => exact .const (log_matchTerminal _ _ _ ▸ List.suffix_rfl)
    | pattern p => exact .const (log_matchTerminal _ _ _ ▸ List.suffix_rfl)
    | reference ref =>
      simp only
      cases hr : g.resolve ref e.name with
      | ok n => exact makes_matchQuantified hx hl n.1 n.2 x.quantifier m
      | error err => exact .const (log_reportError m err)
  exact hkind.map (log_reportSymbol x _) (passesHalt_reportSymbol x)

theorem makes_matchSymbols (rule : Rule τ) (start : Position) (xs : List Symbol)
    (m : Machine τ) : Makes call m (requestsOfSymbols call g e xs m)
      fun c => matchSymbols c g e rule start xs m := by
  induction xs generalizing m with
  | nil => exact .const List.suffix_rfl
  | cons x xs ih =>
    have hsymbol : Makes call m (requestsOfSymbol call g e x (m.atSymbol x)) fun c =>
        applyLookahead x.lookahead m.position (matchSymbol c g e x (m.atSymbol x)) := by
      refine ((makes_matchSymbol hx hl x (m.atSymbol x)).map ?_
        (passesHalt_applyLookahead _ _)).of_precedes ⟨.refl _, rfl, List.suffix_rfl⟩
      exact log_applyLookahead _ _ _ ▸ List.suffix_rfl
    have hxm : Attempt.Exact m.position m.depth
        (applyLookahead x.lookahead m.position (matchSymbol call g e x (m.atSymbol x))) :=
      exact_applyLookahead x.lookahead (exact_matchSymbol hx x (m.atSymbol x))
    have hgrows := hsymbol.grows
    simp only [requestsOfSymbols, matchSymbols]
    rcases hr : applyLookahead x.lookahead m.position (matchSymbol call g e x (m.atSymbol x))
      with ⟨o, m'⟩
    rw [hr] at hxm hgrows
    let K : Attempt τ Value → Matcher τ → Attempt τ (List Value) := fun r c =>
      (r.orElse fun m' => ⟨.mismatch, giveUp e rule start x m'⟩).andThen fun v m' =>
        (matchSymbols c g e rule start xs m').andThen fun vs m'' => ⟨.matched (v :: vs), m''⟩
    have hpass : ∀ c, Attempt.PassesHalt fun r => K r c := fun c =>
      (Attempt.passesHalt_andThen _).comp (Attempt.passesHalt_orElse _)
    cases o with
    | matched v =>
      -- the symbols behind this one are asked for from where it has led
      have hmore : Makes call m' (requestsOfSymbols call g e xs m') (K ⟨.matched v, m'⟩) :=
        (ih m').map (Attempt.log_andThen_matched _ _ ▸ List.suffix_rfl)
          (Attempt.passesHalt_andThen _)
      exact hsymbol.bind (K := K) hr hmore ⟨hxm.1, hxm.2, hgrows⟩ List.suffix_rfl hpass
    | mismatch =>
      have h := hsymbol.stop (K := K) hr (fun _ => rfl) (List.suffix_cons _ _) hpass
      simpa [Attempt.ifMatched] using h
    | error | endless =>
      have h := hsymbol.stop (K := K) hr (fun _ => rfl) List.suffix_rfl hpass
      simpa [Attempt.ifMatched] using h

theorem makes_matchRule (s : Setting τ) (rule : Rule τ) (m : Machine τ) :
    Makes call m (requestsOfSymbols call g e rule.symbols (m.atRule rule))
      fun c => matchRule s c g e rule m := by
  have hsymbols := (makes_matchSymbols (g := g) (e := e) hx hl rule m.position rule.symbols
    (m.atRule rule)).of_precedes (m := m) ⟨.refl _, rfl, List.suffix_rfl⟩
  refine hsymbols.map ?_ (Attempt.passesHalt_andThen _)
  rcases matchSymbols call g e rule m.position rule.symbols (m.atRule rule) with ⟨o, m'⟩
  cases o with
  | matched args => exact log_finishRule s args _ m'
  | mismatch => exact List.suffix_rfl
  | error x => exact List.suffix_rfl
  | endless => exact List.suffix_rfl

theorem makes_matchRules (s : Setting τ) (rules : List (Rule τ)) (m : Machine τ) :
    Makes call m (requestsOfRules s call g e rules m) fun c => matchRules s c g e rules m := by
  induction rules generalizing m with
  | nil => exact .const List.suffix_rfl
  | cons rule rules ih =>
    have hrule : Makes call m (requestsOfSymbols call g e rule.symbols (m.atRule rule))
        fun c => matchRule s c g e rule m := makes_matchRule hx hl s rule m
    have hxm := exact_matchRule (g := g) (e := e) s hx rule m
    have hgrows := hrule.grows
    simp only [requestsOfRules, matchRules]
    rcases hr : matchRule s call g e rule m with ⟨o, m'⟩
    rw [hr] at hxm hgrows
    let K : Attempt τ Value → Matcher τ → Attempt τ Value := fun r c =>
      r.orElse fun m' => matchRules s c g e rules m'
    have hpass : ∀ c, Attempt.PassesHalt fun r => K r c := fun c => Attempt.passesHalt_orElse _
    cases o with
    | mismatch =>
      -- the next rule is tried from where this one was
      have hp : m.position.Reaches m'.position := hxm.1 ▸ .refl _
      exact hrule.bind (K := K) hr (ih m') ⟨hp, hxm.2, hgrows⟩ List.suffix_rfl hpass
    | matched | error | endless =>
      have h := hrule.stop (K := K) hr (fun _ => rfl) List.suffix_rfl hpass
      simpa [Attempt.ifMismatch] using h

/-- The requests of an expression are those that its rules make, one level deeper. -/
theorem makes_matchInside (s : Setting τ) (q : Request τ) :
    Makes call (q.machine.enter q.expression) (requestsInside s call q)
      fun c => matchInside s c q.grammar q.expression q.machine := by
  have hpass : Attempt.PassesHalt fun r : Attempt τ Value =>
      (r.orElse fun m' => ⟨.mismatch, m'.report (.noRuleMatched q.expression.name q.grammar.name
        m'.cursor)⟩).mapMachine fun m' => m'.leave q.machine.focus := by
    rintro ⟨o, m⟩ h hh
    cases o <;> cases hh <;> rfl
  refine (makes_matchRules hx hl s q.expression.rules _).map ?_ hpass
  rcases matchRules s call q.grammar q.expression q.expression.rules
    (q.machine.enter q.expression) with ⟨o, m'⟩
  cases o with
  | mismatch => exact List.suffix_cons _ _
  | matched v => exact List.suffix_rfl
  | error x => exact List.suffix_rfl
  | endless => exact List.suffix_rfl

end

/-- Nothing that has been logged is lost, however deeply expressions may nest. -/
theorem logs_matchExpression (s : Setting τ) (bound : Nat) : (matchExpression s bound).Logs := by
  induction bound with
  | zero => exact fun _ _ _ => List.suffix_rfl
  | succ bound ih =>
    intro g e m
    have hinside := (makes_matchInside (exact_matchExpression s bound) ih s ⟨g, e, m⟩).grows
    unfold matchExpression
    split
    · exact hinside
    · split
      · exact List.suffix_rfl
      · exact hinside

end OrderedChoice
