import OrderedChoice.Proofs.Depth.Limit
import OrderedChoice.Proofs.Simulation

/-!
# Sessions have no history

A session is used for one parse after the other, and each of them leaves its machine somewhere: in
the middle of a text, or with expressions open that an error has kept from being left.
`Session.parseInPlace` is a parse with the machine of the session as it was left, which is rewound
before and after, and whose log grows on.  `Session.parse` begins with a machine of its own.

* `Session.parseInPlace_eq`: the two do the same, whatever state the session is in;
* `Session.foldl_performInPlace`: what a session logs over its life is what sessions log that
  parse one text each;
* `Session.history_irrelevant`: no operation on a session has a say in the parses after it.
-/

namespace OrderedChoice

variable {τ : Type}

/-! ### What has been logged before -/

/-- A run beside one that has logged `base` before, and is the same otherwise. -/
def Simulation.logged (s : Setting τ) (base : List (Entry τ)) : Simulation s s :=
  .inPlace s (fun _ g g' => g = g') (fun l l' => l' = l ++ base) (congrArg _)
    (by
      rintro e g _ _ _ ref rfl _ _ _
      cases g.resolve ref e.name with
      | ok target => exact .inl ⟨_, _, _, rfl, rfl, rfl⟩
      | error err => exact .inr ⟨_, rfl, rfl⟩)
    (by
      rintro _ _ _ rfl
      rfl)
    (by
      rintro _ _ _ _ _ _ _ _ _ _ rfl rfl
      rfl)
    (by
      rintro _ _ _ _ _ _ _ _ rfl
      rfl)

/-- The machine with something logged before. -/
def Machine.after (m : Machine τ) (base : List (Entry τ)) : Machine τ :=
  { m with log := m.log ++ base }

theorem Simulation.machines_logged_iff {s : Setting τ} {base : List (Entry τ)} {m m' : Machine τ} :
    (Simulation.logged s base).Machines m m' ↔ m' = m.after base := by
  constructor
  · rintro ⟨hplace, hdepth, hfocus, hlog⟩
    obtain ⟨p, d, f, l⟩ := m
    obtain ⟨p', d', f', l'⟩ := m'
    cases hplace
    cases hdepth
    cases hfocus
    cases hlog
    rfl
  · rintro rfl
    exact ⟨rfl, rfl, rfl, rfl⟩

namespace Session

/-- What was logged before does not show in how the root is matched. -/
theorem matchRoot_after (s : Session τ) (text : List Char) (m : Machine τ)
    (base : List (Entry τ)) :
    s.matchRoot text (m.after base) = (s.matchRoot text m).mapMachine fun m' => m'.after base := by
  have h : (Simulation.logged (s.setting text) base).Attempts (s.matchRoot text m)
      (s.matchRoot text (m.after base)) := by
    have hm : (Simulation.logged (s.setting text) base).Machines m (m.after base) :=
      Simulation.machines_logged_iff.2 rfl
    unfold matchRoot
    split
    · exact hm.attempts _
    · exact Simulation.attempts_checkRemainder rfl (congrArg _) _
        (Simulation.attempts_matchExpression _ _ rfl hm)
  obtain ⟨o, k, k', hr, hr', hmachines⟩ := h.exists_eq
  obtain rfl := Simulation.machines_logged_iff.1 hmachines
  rw [hr, hr']
  rfl

/-! ### Parses in place -/

/-- The session with its machine turned back to the start of the text; nothing of it remains but
what has been logged. -/
def rewind (s : Session τ) : Session τ :=
  { s with machine := (Machine.start s.input.toList).after s.machine.log }

/-- Parses a text with the machine of the session. -/
def parseInPlace (s : Session τ) (input : String) : Outcome Value × Session τ :=
  let text := input.toList
  let s := { s with input := input }.rewind
  let r := s.matchRoot text (s.machine.report (.parseStarted s.grammar.name (byteLength text)))
  let after := r.machine.report (.parseFinished r.outcome.isMatch r.machine.cursor)
  (r.outcome, { s with machine := after }.rewind)

/-- **A parse in place is a parse**: it comes to the same and adds what the parse logs. -/
theorem parseInPlace_eq (s : Session τ) (input : String) : s.parseInPlace input =
    ((s.parse input).1.outcome,
      { s with
        input := input
        machine := (Machine.start input.toList).after
          ((s.parse input).1.log ++ s.machine.log) }) := by
  have hroot : let before := { s with input := input }.rewind
      before.matchRoot input.toList
        (before.machine.report (.parseStarted before.grammar.name (byteLength input.toList))) =
      (s.matchRoot input.toList (s.startMachine input.toList)).mapMachine
        fun m => m.after s.machine.log :=
    s.matchRoot_after input.toList (s.startMachine input.toList) s.machine.log
  simp only [parseInPlace, hroot]
  rfl

end Session

/-! ### Operations -/

/-- What is done with a session. -/
inductive Operation where
  | parse (input : String)
  | reset

namespace Operation

/-- The text that an operation parses. -/
def input? : Operation → Option String
  | parse input => some input
  | reset => none

/-- The text that was parsed last, which is empty before the first parse. -/
def lastInput (ops : List Operation) : String := (ops.filterMap input?).getLast?.getD ""

theorem lastInput_concat (ops : List Operation) (op : Operation) :
    lastInput (ops ++ [op]) = op.input?.getD (lastInput ops) := by
  cases op <;> simp [lastInput, input?]

end Operation

namespace Session

variable (s : Session τ)

/-- The session after an operation. -/
def perform : Operation → Session τ
  | .parse input => (s.parse input).2
  | .reset => s.reset

/-- The session after an operation on the machine that it keeps. -/
def performInPlace : Operation → Session τ
  | .parse input => (s.parseInPlace input).2
  | .reset => s.rewind

/-- What the session logs in an operation. -/
def logOf : Operation → List (Entry τ)
  | .parse input => (s.parse input).1.log
  | .reset => []

/-- The session as it would be if it had parsed nothing but a text, which it parsed last, and had
logged something. -/
def rested (text : String) (log : List (Entry τ)) : Session τ :=
  { s with input := text, machine := (Machine.start text.toList).after log }

variable (text : String) (log : List (Entry τ)) (op : Operation)

theorem perform_rested :
    (s.rested text []).perform op = s.rested (op.input?.getD text) [] := by
  cases op <;> rfl

theorem performInPlace_rested : (s.rested text log).performInPlace op =
    s.rested (op.input?.getD text) (s.logOf op ++ log) := by
  cases op with
  | parse input =>
    simp only [performInPlace, parseInPlace_eq]
    rfl
  | reset => rfl

variable (ops : List Operation)

theorem foldl_perform :
    ops.foldl perform (s.rested "" []) = s.rested (Operation.lastInput ops) [] := by
  induction ops using List.reverseRecOn with
  | nil => rfl
  | append_singleton ops op ih =>
    rw [List.foldl_concat, ih, perform_rested, Operation.lastInput_concat]

/-- **What a session logs in its life** is what it would log in each operation alone. -/
theorem foldl_performInPlace : ops.foldl performInPlace (s.rested "" []) =
    s.rested (Operation.lastInput ops) (ops.reverse.flatMap s.logOf) := by
  induction ops using List.reverseRecOn with
  | nil => rfl
  | append_singleton ops op ih =>
    rw [List.foldl_concat, ih, performInPlace_rested, Operation.lastInput_concat,
      List.reverse_concat, List.flatMap_cons]

theorem eventsOf_append (log log' : List (Entry τ)) :
    eventsOf (log' ++ log) = eventsOf log ++ eventsOf log' := by
  simp [eventsOf]

theorem callsOf_append (log log' : List (Entry τ)) :
    callsOf (log' ++ log) = callsOf log ++ callsOf log' := by
  simp [callsOf]

/-- **No operation has a say in the parses after it.**  After any operations, on sessions that
begin each parse with a machine of their own as on sessions that use one machine all the time, a
parse comes to the same, applies the same transforms and reports the same as on a new session, and
nothing remains of it but its text. -/
theorem history_irrelevant (g : Grammar τ) (meaning : Meaning τ) (config : Config)
    (ops : List Operation) :
    let fresh := Session.new g meaning config
    let used := ops.foldl perform fresh
    let kept := ops.foldl performInPlace fresh
    (∀ input, (used.parse input).1 = (fresh.parse input).1) ∧
    (∀ input, (kept.parseInPlace input).1 = (fresh.parse input).1.outcome ∧
      callsOf (kept.parseInPlace input).2.machine.log =
        callsOf kept.machine.log ++ callsOf (fresh.parse input).1.log ∧
      eventsOf (kept.parseInPlace input).2.machine.log =
        eventsOf kept.machine.log ++ eventsOf (fresh.parse input).1.log) ∧
    ∀ s ∈ [used, kept], s.machine.cursor = 0 ∧ s.machine.depth = 0 ∧ s.machine.focus = .none ∧
      s.input = Operation.lastInput ops ∧ s.grammar = g ∧ s.config = config := by
  intro fresh used kept
  have hused : used = fresh.rested (Operation.lastInput ops) [] := fresh.foldl_perform ops
  have hkept : kept = fresh.rested (Operation.lastInput ops) (ops.reverse.flatMap fresh.logOf) :=
    fresh.foldl_performInPlace ops
  refine ⟨fun input => ?_, fun input => ?_, fun s hs => ?_⟩
  · rw [hused]
    rfl
  · have hlog : (kept.parseInPlace input).2.machine.log =
        (fresh.parse input).1.log ++ kept.machine.log := by
      rw [parseInPlace_eq, hkept]
      rfl
    rw [hlog]
    refine ⟨?_, callsOf_append _ _, eventsOf_append _ _⟩
    rw [parseInPlace_eq, hkept]
    rfl
  · simp only [List.mem_cons, List.not_mem_nil, or_false] at hs
    rcases hs with rfl | rfl
    · rw [hused]
      exact ⟨rfl, rfl, rfl, rfl, rfl, rfl⟩
    · rw [hkept]
      exact ⟨rfl, rfl, rfl, rfl, rfl, rfl⟩

end Session

end OrderedChoice
