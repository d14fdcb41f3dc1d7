import OrderedChoice.Proofs.Semantics.Nesting
import OrderedChoice.Session

/-!
# A parse finds what the grammar means

`s.Yields text a` says, without a machine, what a session is to answer to a text: what the root
expression comes to at its start, where input that is left over may be a reason for refusal.

* `Session.Yields.unique`: there is at most one such answer;
* `Session.parse_adequate`: a parse ends in a value, a mismatch or an error if and only if that is
  the answer, and is endless if and only if there is none.
-/

namespace OrderedChoice

variable {τ : Type}

/-- The answer of a parse that ends: a value, none for a mismatch, or an error. -/
def Outcome.answer? {α : Type} : Outcome α → Option (Except GrammarError (Option α))
  | matched a => some (.ok (some a))
  | mismatch => some (.ok none)
  | error e => some (.error e)
  | endless => none

/-- Of the outcomes of a parse that ends no two have the same answer. -/
theorem Outcome.eq_of_answer? {α : Type} {o o' : Outcome α} {x : Except GrammarError (Option α)}
    (h : o.answer? = some x) (h' : o'.answer? = some x) : o = o' := by
  cases o <;> cases h <;> cases o' <;> cases h' <;> rfl

/-- Outcomes with the same answers are the same. -/
theorem Outcome.eq_of_answers {α : Type} {o o' : Outcome α}
    (h : ∀ x, o.answer? = some x ↔ o'.answer? = some x) : o = o' := by
  have heq : o.answer? = o'.answer? := Option.ext h
  cases o <;> cases o' <;> cases heq <;> rfl

namespace Session

/-- The frame in which the root expression is matched. -/
def rootFrame (s : Session τ) (e : Expression τ) : Frame τ :=
  ⟨s.config.maxDepth.map (·.toNat), s.grammar, e⟩

/-- What the grammar and the configuration of a session make of a text. -/
inductive Yields (s : Session τ) (text : List Char) : Except GrammarError (Option Value) → Prop
  | noRoot : s.grammar.root? = none → Yields s text (.error (.missingRoot s.grammar.name))
  | value {e : Expression τ} {v : Value} {q : Position} : s.grammar.root? = some e →
      Matches (s.setting text) (s.rootFrame e) (.start text) (.ok v q) →
      (s.config.requireFullMatch = true → q.rest = []) → Yields s text (.ok (some v))
  | remainder {e : Expression τ} {v : Value} {q : Position} : s.grammar.root? = some e →
      Matches (s.setting text) (s.rootFrame e) (.start text) (.ok v q) →
      s.config.requireFullMatch = true → q.rest ≠ [] → Yields s text (.ok none)
  | mismatch {e : Expression τ} : s.grammar.root? = some e →
      Matches (s.setting text) (s.rootFrame e) (.start text) .fail → Yields s text (.ok none)
  | error {e : Expression τ} {x : GrammarError} : s.grammar.root? = some e →
      Matches (s.setting text) (s.rootFrame e) (.start text) (.err x) →
      Yields s text (.error x)

variable {s : Session τ} {text : List Char} {e : Expression τ} {r : Result Value}

/-- The bound on nesting is large enough for whatever the root expression comes to. -/
theorem within_nestingBound (he : s.grammar.root? = some e)
    (h : Matches (s.setting text) (s.rootFrame e) (.start text) r) :
    Within (s.setting text) (nestingBound s.grammar s.config text) (s.rootFrame e) (.start text)
      r := by
  unfold nestingBound
  cases hmax : s.config.maxDepth with
  | some limit => exact h.within_of_room (by simp only [rootFrame, hmax, Option.map_some])
  | none =>
    have hl : (s.setting text).limit = none := by simp only [setting, hmax, Option.map_none]
    have hroom : (s.rootFrame e).room = none := by simp only [rootFrame, hmax, Option.map_none]
    have hin : (s.rootFrame e).IsIn s.grammar := ⟨.self, Grammar.mem_of_root? he⟩
    refine (h.within_of_isIn hl hroom hin (.refl _)).mono ?_
    -- there are no more places than offsets
    have hlen := length_le_byteLength text
    exact (Nat.mul_le_mul_left _ (Nat.succ_le_succ hlen)).trans (Nat.le_succ _)

theorem frame_root (s : Session τ) (text : List Char) (e : Expression τ) :
    (s.setting text).frame 0 s.grammar e = s.rootFrame e := by
  cases hmax : s.config.maxDepth <;> simp [Setting.frame, setting, rootFrame, hmax]

/-- What the engine makes of the root expression at the start of a text. -/
theorem result?_root (he : s.grammar.root? = some e) {m : Machine τ}
    (hp : m.position = .start text) (hd : m.depth = 0) :
    (matchExpression (s.setting text) (nestingBound s.grammar s.config text) s.grammar e m).result?
        = some r ↔ Matches (s.setting text) (s.rootFrame e) (.start text) r := by
  rw [result?_matchExpression, hp, hd, frame_root]
  exact ⟨Within.matches, within_nestingBound he⟩

/-- Input is left over at a place unless the place is its end. -/
theorem offset_lt_iff {q : Position} (h : (Position.start text).Reaches q) :
    q.offset < byteLength text ↔ q.rest ≠ [] := by
  obtain ⟨cs, hrest, hoffset⟩ := h
  have hlen : byteLength text = q.offset + byteLength q.rest := by
    rw [hoffset, show text = cs ++ q.rest from hrest, byteLength_append]
    exact congrArg (· + _) (Nat.zero_add _).symm
  rw [← not_iff_not, not_not, ← Position.byteLength_eq_zero]
  omega

/-- The answer to a text of which the root expression comes to a result. -/
def answer (s : Session τ) (text : List Char) : Result Value → Except GrammarError (Option Value)
  | .ok v q =>
    if s.config.requireFullMatch && q.offset < byteLength text then .ok none else .ok (some v)
  | .fail => .ok none
  | .err x => .error x

theorem answer?_checkRemainder (a : Attempt τ Value) :
    (s.checkRemainder (byteLength text) a).outcome.answer? = a.result?.map (s.answer text) := by
  obtain ⟨o, m⟩ := a
  cases o with
  | matched v =>
    simp only [checkRemainder, Attempt.andThen_matched]
    by_cases hc : (s.config.requireFullMatch && m.cursor < byteLength text) = true
    · rw [if_pos hc]
      exact congrArg some (if_pos hc).symm
    · rw [if_neg hc]
      exact congrArg some (if_neg hc).symm
  | mismatch => rfl
  | error x => rfl
  | endless => rfl

theorem yields_iff {x : Except GrammarError (Option Value)} (he : s.grammar.root? = some e) :
    s.Yields text x ↔ ∃ r, Matches (s.setting text) (s.rootFrame e) (.start text) r ∧
      s.answer text r = x := by
  have heq : ∀ {e'}, s.grammar.root? = some e' → e' = e :=
    fun he' => Option.some.inj (he'.symm.trans he)
  constructor
  · intro h
    cases h with
    | noRoot he' => cases he.symm.trans he'
    | @value e' v q he' h hfull =>
      obtain rfl := heq he'
      refine ⟨_, h, if_neg fun hc => ?_⟩
      rw [Bool.and_eq_true, decide_eq_true_eq, offset_lt_iff (h.isAheadOf v q rfl)] at hc
      exact hc.2 (hfull hc.1)
    | @remainder e' v q he' h hfull hrest =>
      obtain rfl := heq he'
      refine ⟨_, h, if_pos ?_⟩
      rw [Bool.and_eq_true, decide_eq_true_eq, offset_lt_iff (h.isAheadOf v q rfl)]
      exact ⟨hfull, hrest⟩
    | mismatch he' h =>
      obtain rfl := heq he'
      exact ⟨_, h, rfl⟩
    | error he' h =>
      obtain rfl := heq he'
      exact ⟨_, h, rfl⟩
  · rintro ⟨r, h, rfl⟩
    cases r with
    | ok v q =>
      have hahead := h.isAheadOf v q rfl
      simp only [answer]
      split
      · rename_i hc
        rw [Bool.and_eq_true, decide_eq_true_eq, offset_lt_iff hahead] at hc
        exact .remainder he h hc.1 hc.2
      · rename_i hc
        rw [Bool.and_eq_true, decide_eq_true_eq, offset_lt_iff hahead] at hc
        exact .value he h fun hfull => not_not.1 fun hrest => hc ⟨hfull, hrest⟩
    | fail => exact .mismatch he h
    | err x => exact .error he h

/-- The answer of a parse is that of the grammar. -/
theorem answer?_parse_iff (s : Session τ) (input : String)
    (x : Except GrammarError (Option Value)) :
    (s.parse input).1.outcome.answer? = some x ↔ s.Yields input.toList x := by
  change (s.matchRoot input.toList _).outcome.answer? = some x ↔ _
  unfold matchRoot
  cases he : s.grammar.root? with
  | none =>
    -- without a root the only answer is the error, as all others are answers of a root
    constructor
    · intro h
      cases h
      exact .noRoot he
    · intro h
      cases h with
      | noRoot => rfl
      | value he' => cases he.symm.trans he'
      | remainder he' => cases he.symm.trans he'
      | mismatch he' => cases he.symm.trans he'
      | error he' => cases he.symm.trans he'
  | some e =>
    rw [answer?_checkRemainder, Option.map_eq_some_iff, yields_iff he]
    exact exists_congr fun r => and_congr_left fun _ => result?_root he rfl rfl

theorem outcome_eq_matched {input : String} {v : Value}
    (h : s.Yields input.toList (.ok (some v))) : (s.parse input).1.outcome = .matched v :=
  Outcome.eq_of_answer? ((s.answer?_parse_iff input _).2 h) rfl

theorem outcome_eq_mismatch {input : String} (h : s.Yields input.toList (.ok none)) :
    (s.parse input).1.outcome = .mismatch :=
  Outcome.eq_of_answer? ((s.answer?_parse_iff input _).2 h) rfl

theorem Yields.unique {x y : Except GrammarError (Option Value)} (hx : s.Yields text x)
    (hy : s.Yields text y) : x = y := by
  -- both are the answer of one parse
  rw [← String.toList_ofList (l := text), ← answer?_parse_iff] at hx hy
  exact Option.some.inj (hx.symm.trans hy)

/-- **A parse comes to what the grammar means**, whatever it was that the session parsed before. -/
theorem parse_adequate (s : Session τ) (input : String) :
    (∀ v, (s.parse input).1.outcome = .matched v ↔ s.Yields input.toList (.ok (some v))) ∧
    ((s.parse input).1.outcome = .mismatch ↔ s.Yields input.toList (.ok none)) ∧
    (∀ x, (s.parse input).1.outcome = .error x ↔ s.Yields input.toList (.error x)) ∧
    ((s.parse input).1.outcome = .endless ↔ ∀ x, ¬ s.Yields input.toList x) := by
  simp only [← answer?_parse_iff]
  cases (s.parse input).1.outcome with
  | matched v => simp [Outcome.answer?]
  | mismatch => simp [Outcome.answer?]
  | error x => simp [Outcome.answer?]
  | endless => simp [Outcome.answer?]

end Session

end OrderedChoice
