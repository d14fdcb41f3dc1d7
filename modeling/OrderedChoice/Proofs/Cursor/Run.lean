import OrderedChoice.Match.Bytes
import OrderedChoice.Proofs.Cursor.Boundary

/-!
# Runs over bytes beside runs over characters

The engine over bytes keeps numbers and slices its input between them.  `Machine.Shows` says that
one of its machines is where a machine of the engine over characters is, and that all offsets it has
held are the ends of slices of the input; `Agrees` says that what a computation comes to is the
outcome of an attempt.

* `Run.on_bind` and the lemmas beside it take computations apart;
* `Machine.Shows.moveTo` and the lemmas beside it: what is done to both machines keeps them
  together;
* `Agrees.andThen` and `Agrees.orElse`: a computation goes on after a match or after a mismatch as
  an attempt does.
-/

namespace OrderedChoice

variable {τ α β : Type}

namespace Bytes

/-! ### Computations -/

namespace Run

variable (b : Machine τ)

@[simp] theorem on_pure (a : α) : (pure a : Run τ α).on b = (.ok a, b) := rfl

@[simp] theorem on_throw (stop : Stop) : (throw stop : Run τ α).on b = (.error stop, b) := rfl

@[simp] theorem on_get : (get : Run τ (Machine τ)).on b = (.ok b, b) := rfl

@[simp] theorem on_modify (f : Machine τ → Machine τ) :
    (modify f : Run τ Unit).on b = (.ok (), f b) := rfl

@[simp] theorem on_get_bind (k : Machine τ → Run τ α) : (get >>= k).on b = (k b).on b := rfl

@[simp] theorem on_modify_bind (f : Machine τ → Machine τ) (k : Unit → Run τ α) :
    (modify f >>= k).on b = (k ()).on (f b) := rfl

theorem on_bind (x : Run τ α) (k : α → Run τ β) :
    (x >>= k).on b = match x.on b with
      | (.ok a, b') => (k a).on b'
      | (.error stop, b') => (.error stop, b') := by
  change (ExceptT.bindCont k (x.on b).1).run (x.on b).2 = _
  rcases x.on b with ⟨_ | _, b'⟩ <;> rfl

/-- What is done finally is done after a result and after an error. -/
theorem on_finally (x : Run τ α) (f : Machine τ → Machine τ) :
    (tryFinally x (modify f)).on b = ((x.on b).1, f (x.on b).2) := by
  rcases h : x.on b with ⟨r, b'⟩
  have hx : x b = (r, b') := h
  unfold on ExceptT.run StateT.run tryFinally
  simp only [tryFinally', ExceptT.mk, Functor.map, ExceptT.map, bind, StateT.bind, hx, pure]
  cases r <;> rfl

end Run

/-- The answer of a computation that has the outcome of an attempt. -/
def answer : Outcome α → Except Stop (Option α)
  | .matched a => .ok (some a)
  | .mismatch => .ok none
  | .error e => .error (.error e)
  | .endless => .error .endless

/-! ### From characters to bytes -/

/-- The context with its places told by offsets. -/
def Context.ofPlaces (input : String) (c : OrderedChoice.Context τ) : Context τ :=
  ⟨c.grammar, c.expression, c.rule, input, c.start.offset, c.stop.offset⟩

/-- The call with the places of its context told by offsets. -/
def Call.ofPlaces (input : String) (c : OrderedChoice.Call τ) : Call τ :=
  ⟨c.transform, c.args, .ofPlaces input c.context⟩

/-- The line with the places of its context told by offsets. -/
def Entry.ofPlaces (input : String) : OrderedChoice.Entry τ → Entry τ
  | .event e => .event e
  | .call c => .call (.ofPlaces input c)

/-- The offsets are the ends of a slice of the input. -/
def Mark.IsSound (input : String) (k : Mark) : Prop := ∃ text, IsCut input k.start k.stop text

/-- The machine is where one over characters is, which is at a place of the input, and has held no
offsets that are not the ends of a slice. -/
structure Machine.Shows (input : String) (b : Machine τ) (m : OrderedChoice.Machine τ) : Prop where
  reaches : (Position.start input.toList).Reaches m.position
  cursor_eq : b.cursor = m.position.offset
  depth_eq : b.depth = m.depth
  focus_eq : b.focus = m.focus
  log_eq : b.log = m.log.map (Entry.ofPlaces input)
  calls : ∀ c, .call c ∈ m.log → (Position.start input.toList).Reaches c.context.start ∧
    c.context.start.Reaches c.context.stop
  marks : ∀ k ∈ b.marks, k.IsSound input

/-- A computation has come to the outcome of an attempt, with a machine that is where the other one
is. -/
def Agrees (input : String) (y : Except Stop (Option α) × Machine τ) (r : Attempt τ α) : Prop :=
  y.1 = answer r.outcome ∧ y.2.Shows input r.machine

variable {input : String} {b : Machine τ} {m : OrderedChoice.Machine τ} {p q : Position}

theorem Agrees.exists_eq {y : Except Stop (Option α) × Machine τ} {r : Attempt τ α}
    (h : Agrees input y r) :
    ∃ o b' m', y = (answer o, b') ∧ r = ⟨o, m'⟩ ∧ b'.Shows input m' := by
  obtain ⟨a, b'⟩ := y
  obtain ⟨o, m'⟩ := r
  obtain ⟨ha, hm⟩ := h
  obtain rfl : a = answer o := ha
  exact ⟨o, b', m', rfl, rfl, hm⟩

/-- A computation that cannot fail has come to a match or to what ends the run. -/
theorem Agrees.exists_eq_of_some {y : Except Stop α × Machine τ} {r : Attempt τ α}
    (h : Agrees input (y.1.map some, y.2) r) :
    (∃ a b' m', y = (.ok a, b') ∧ r = ⟨.matched a, m'⟩ ∧ b'.Shows input m') ∨
      ∃ stop b', y = (.error stop, b') ∧
        ∀ {β} (f : α → OrderedChoice.Machine τ → Attempt τ β),
          Agrees input (.error stop, b') (r.andThen f) := by
  obtain ⟨a, b'⟩ := y
  obtain ⟨o, m'⟩ := r
  obtain ⟨ha, hm⟩ := h
  cases a with
  | error stop =>
    cases o <;> cases ha <;> exact .inr ⟨_, b', rfl, fun f => ⟨rfl, hm⟩⟩
  | ok a =>
    cases o <;> cases ha
    exact .inl ⟨a, b', m', rfl, rfl, hm⟩

section

variable {x : Run τ (Option α)} {r : Attempt τ α}

/-- What is done after a match is what the attempt does after it, and a mismatch stays one. -/
theorem Agrees.andThen {k : Option α → Run τ (Option β)}
    {f : α → OrderedChoice.Machine τ → Attempt τ β} (h : Agrees input (x.on b) r)
    (hmatched : ∀ {a b' m'}, r = ⟨.matched a, m'⟩ → b'.Shows input m' →
      Agrees input ((k (some a)).on b') (f a m'))
    (hnone : ∀ b', (k none).on b' = (.ok none, b')) :
    Agrees input ((x >>= k).on b) (r.andThen f) := by
  obtain ⟨o, b', m', hy, rfl, hm⟩ := h.exists_eq
  rw [Run.on_bind, hy]
  cases o with
  | matched a => exact hmatched rfl hm
  | mismatch => exact ⟨congrArg Prod.fst (hnone b'), (congrArg Prod.snd (hnone b')).symm ▸ hm⟩
  | error e => exact ⟨rfl, hm⟩
  | endless => exact ⟨rfl, hm⟩

/-- What is done after a mismatch is what the attempt does after it, and a match stays one. -/
theorem Agrees.orElse {k : Option α → Run τ (Option α)}
    {f : OrderedChoice.Machine τ → Attempt τ α} (h : Agrees input (x.on b) r)
    (hsome : ∀ a b', (k (some a)).on b' = (.ok (some a), b'))
    (hmismatch : ∀ {b' m'}, b'.Shows input m' → Agrees input ((k none).on b') (f m')) :
    Agrees input ((x >>= k).on b) (r.orElse f) := by
  obtain ⟨o, b', m', hy, rfl, hm⟩ := h.exists_eq
  rw [Run.on_bind, hy]
  cases o with
  | matched a => exact ⟨congrArg Prod.fst (hsome a b'), (congrArg Prod.snd (hsome a b')).symm ▸ hm⟩
  | mismatch => exact hmismatch hm
  | error e => exact ⟨rfl, hm⟩
  | endless => exact ⟨rfl, hm⟩

end

theorem isSound_of_reaches {k : Mark} (hp : (Position.start input.toList).Reaches p)
    (hq : p.Reaches q) (hstart : k.start = p.offset) (hstop : k.stop = q.offset) :
    k.IsSound input := by
  refine ⟨String.ofList (p.textTo q), ?_⟩
  rw [hstart, hstop]
  exact hp.isCut hq

/-- The size of the input is that of its characters. -/
theorem utf8ByteSize_eq (input : String) : input.utf8ByteSize = byteLength input.toList := by
  rw [← utf8ByteSize_ofList, String.ofList_toList]

/-- No more characters are left of the input than it has bytes. -/
theorem length_rest_le (hp : (Position.start input.toList).Reaches p) :
    p.rest.length ≤ input.utf8ByteSize := by
  obtain ⟨before, hbefore⟩ := hp
  have hinput : input.toList = before ++ p.rest := hbefore.1
  have hlength := length_le_byteLength input.toList
  rw [← utf8ByteSize_eq, hinput, List.length_append] at hlength
  omega

/-- From a place of the input on there is a slice, of the characters after it. -/
theorem slice?_rest (hp : (Position.start input.toList).Reaches p) :
    slice? input p.offset input.utf8ByteSize = some (String.ofList p.rest) := hp.isIn.slice?_eq

namespace Machine.Shows

theorem agrees (h : b.Shows input m) (o : Outcome α) : Agrees input (answer o, b) ⟨o, m⟩ := ⟨rfl, h⟩

theorem moveTo (h : b.Shows input m) (hp : (Position.start input.toList).Reaches p) :
    (b.moveTo p.offset).Shows input (m.moveTo p) :=
  { h with
    reaches := hp
    cursor_eq := rfl
    marks := List.forall_mem_cons.2 ⟨isSound_of_reaches hp (.refl p) rfl rfl, h.marks⟩ }

theorem mark (h : b.Shows input m) {k : Mark} (hk : k.IsSound input) :
    (b.mark k).Shows input m :=
  { h with marks := List.forall_mem_cons.2 ⟨hk, h.marks⟩ }

theorem report (h : b.Shows input m) (e : Event) : (b.report e).Shows input (m.report e) :=
  { h with
    log_eq := congrArg (List.cons (Entry.event e)) h.log_eq
    calls := fun c hc => h.calls c ((List.mem_cons.1 hc).resolve_left fun h => by cases h) }

/-- A report may tell the cursor. -/
theorem reportCursor (h : b.Shows input m) (ev : Nat → Event) :
    (b.report (ev b.cursor)).Shows input (m.report (ev m.cursor)) := by
  rw [h.cursor_eq]
  exact h.report _

theorem recordCall (h : b.Shows input m) {c : OrderedChoice.Call τ}
    (hstart : (Position.start input.toList).Reaches c.context.start)
    (hstop : c.context.start.Reaches c.context.stop) :
    (b.record (.call (.ofPlaces input c))).Shows input (m.recordCall c) :=
  { h with
    log_eq := congrArg (List.cons (Entry.call (.ofPlaces input c))) h.log_eq
    calls := by
      rintro c' hc
      rcases List.mem_cons.1 hc with hc | hc
      · cases hc
        exact ⟨hstart, hstop⟩
      · exact h.calls c' hc }

theorem atRule (h : b.Shows input m) (rule : Rule τ) :
    (b.turn fun f => { f with rule := some rule }).Shows input (m.atRule rule) :=
  { h with focus_eq := congrArg (fun f : Focus τ => { f with rule := some rule }) h.focus_eq }

theorem atSymbol (h : b.Shows input m) (x : Symbol) :
    (b.turn fun f => { f with symbol := some x }).Shows input (m.atSymbol x) :=
  { h with focus_eq := congrArg (fun f : Focus τ => { f with symbol := some x }) h.focus_eq }

theorem descend (h : b.Shows input m) : b.descend.Shows input { m with depth := m.depth + 1 } :=
  { h with depth_eq := congrArg (· + 1) h.depth_eq }

theorem enter (h : b.Shows input m) (e : Expression τ) :
    (b.descend.turn fun f => { f with expression := some e }).Shows input (m.enter e) :=
  { h.descend with
    focus_eq := congrArg (fun f : Focus τ => { f with expression := some e }) h.focus_eq }

theorem leave (h : b.Shows input m) (back : Focus τ) :
    (b.leave back).Shows input (m.leave back) :=
  { h with
    depth_eq := congrArg (· - 1) h.depth_eq
    focus_eq := rfl }

/-- An error ends both runs, after the same report. -/
theorem agrees_fail (h : b.Shows input m) (e : GrammarError) :
    Agrees input ((fail e : Run τ (Option α)).on b) ⟨.error e, m.reportError e⟩ := by
  unfold fail OrderedChoice.Machine.reportError
  cases e.event? with
  | some event => exact (h.report event).agrees (.error e)
  | none => exact h.agrees (.error e)

end Machine.Shows

end Bytes

end OrderedChoice
