import Mathlib.Data.List.Induction
import OrderedChoice.Proofs.Keys

/-!
# What a grammar is built from

A grammar is built step by step.  What can be looked up in it is said here in terms of the steps
alone, without the tables that they fill.

* `Grammar.rootName_step`, `isSome_expression?_step`, `rulesOf_step` and `import?_step`: what one
  step changes;
* `Grammar.rootName_ofSteps`, `isSome_expression?_ofSteps`, `rulesOf_ofSteps` and
  `import?_ofSteps`: what all steps together have made;
* `Grammar.ofSteps_says` puts these together.  What has been imported stays as it was then: steps
  that follow neither change it nor where references into it lead.
-/

namespace OrderedChoice

variable {τ : Type}

namespace Grammar

/-! ### What steps are about -/

namespace Step

/-- The root that a step sets. -/
def rootName? : Step τ → Option String
  | setRoot name => some name
  | extend .. | define _ | use _ | useSelf => none

/-- The expression that a step adds rules to or puts in place. -/
def expressionName? : Step τ → Option String
  | extend name _ => some name
  | define e => some e.name
  | setRoot _ | use _ | useSelf => none

/-- The step puts an expression with the name in place of any other. -/
def Defines (n : String) (s : Step τ) : Prop := ∃ e, s = define e ∧ e.name = n

/-- The rules that a step adds to the expression with the name. -/
def rulesFor (n : String) : Step τ → List (Rule τ)
  | extend name rules => if name = n then rules else []
  | define _ | setRoot _ | use _ | useSelf => []

/-- The grammar that a step imports into `g`. -/
def imported? (g : Grammar τ) : Step τ → Option (Grammar τ)
  | use i => some i
  | useSelf => some g
  | extend .. | define _ | setRoot _ => none

/-- The name under which a step imports something into a grammar with the name `own`. -/
def importName? (own : String) : Step τ → Option String
  | use i => some i.name
  | useSelf => some own
  | extend .. | define _ | setRoot _ => none

/-- A step is the last with a property, of steps that are those before it, the step itself and those
after it. -/
structure IsLast (P : Step τ → Prop) (steps before : List (Step τ)) (s : Step τ)
    (after : List (Step τ)) : Prop where
  eq_append : steps = before ++ s :: after
  holds : P s
  none_after : ∀ t ∈ after, ¬ P t

theorem exists_isLast (P : Step τ → Prop) (steps : List (Step τ)) :
    (∀ s ∈ steps, ¬ P s) ∨ ∃ before s after, IsLast P steps before s after := by
  induction steps with
  | nil => exact .inl fun _ h => nomatch h
  | cons s steps ih =>
    rcases ih with hnone | ⟨before, t, after, hlast⟩
    · by_cases hs : P s
      · exact .inr ⟨[], s, steps, rfl, hs, hnone⟩
      · exact .inl (List.forall_mem_cons.2 ⟨hs, hnone⟩)
    · exact .inr ⟨s :: before, t, after, by rw [hlast.eq_append]; rfl, hlast.holds,
        hlast.none_after⟩

end Step

/-! ### One step -/

/-- The rules of the expression with a name, none if there is no such expression. -/
def rulesOf (g : Grammar τ) (n : String) : List (Rule τ) := (g.expression? n).elim [] (·.rules)

section

variable (g : Grammar τ) (s : Step τ) (n : String)

theorem name_step : (g.step s).name = g.name := by
  cases s with
  | extend name rules => rfl
  | define e => rfl
  | setRoot name => rfl
  | use i => rfl
  | useSelf => rfl

theorem rootName_step :
    (g.step s).rootName = s.rootName?.or (g.rootName.or s.expressionName?) := by
  cases s with
  | extend name rules => rfl
  | define e => rfl
  | setRoot name => rfl
  | use i => exact (Option.or_none).symm
  | useSelf => exact (Option.or_none).symm

theorem isSome_expression?_step :
    ((g.step s).expression? n).isSome ↔ (g.expression? n).isSome ∨ s.expressionName? = some n := by
  cases s with
  | extend name rules =>
    simp only [step, expression?_extend, Step.expressionName?, Option.some.injEq]
    split <;> simp [*]
  | define e =>
    simp only [step, expression?_define, Step.expressionName?, Option.some.injEq]
    split <;> simp [*]
  | setRoot | use | useSelf => exact (or_iff_left (Option.some_ne_none n).symm).symm

theorem rules_expressionOrNew (key : String) : (g.expressionOrNew key).rules = g.rulesOf key := by
  unfold expressionOrNew rulesOf
  cases g.expression? key <;> rfl

theorem rulesOf_define (e : Expression τ) : (g.define e).rulesOf e.name = e.rules := by
  rw [rulesOf, expression?_define, if_pos rfl]
  rfl

/-- A step that does not put an expression in place of it adds to it. -/
theorem rulesOf_step (h : ¬ s.Defines n) :
    (g.step s).rulesOf n = g.rulesOf n ++ s.rulesFor n := by
  cases s with
  | extend name rules =>
    simp only [step, rulesOf, expression?_extend, Step.rulesFor]
    split
    · rename_i hname
      subst hname
      exact congrArg (· ++ rules) (g.rules_expressionOrNew name)
    · exact (List.append_nil _).symm
  | define e =>
    have hname : e.name ≠ n := fun hn => h ⟨e, rfl, hn⟩
    simp only [step, rulesOf, expression?_define, Step.rulesFor, if_neg hname, List.append_nil]
  | setRoot name => exact (List.append_nil _).symm
  | use i => exact (List.append_nil _).symm
  | useSelf => exact (List.append_nil _).symm

theorem import?_step : (g.step s).import? n =
    if s.importName? g.name = some n then s.imported? g else g.import? n := by
  cases s with
  | extend name rules => rfl
  | define e => rfl
  | setRoot name => rfl
  | use i =>
    simp only [step, import?_use, Step.importName?, Option.some.injEq]
    rfl
  | useSelf =>
    simp only [step, import?_use, Step.importName?, Option.some.injEq]
    rfl

end

/-! ### All steps -/

section

variable (g : Grammar τ) (name : String) (steps before after : List (Step τ)) (n : String)

theorem name_foldl_step : (steps.foldl step g).name = g.name := by
  induction steps generalizing g with
  | nil => rfl
  | cons s steps ih => rw [List.foldl_cons, ih, name_step]

theorem name_ofSteps : (ofSteps name steps : Grammar τ).name = name :=
  name_foldl_step (empty name) steps

theorem ofSteps_split (s : Step τ) : ofSteps name (before ++ s :: after) =
    after.foldl step ((ofSteps name before).step s) := by
  rw [ofSteps, List.foldl_append, List.foldl_cons]
  rfl

/-- The root is the last that was set, or else the first expression. -/
theorem rootName_ofSteps : (ofSteps name steps : Grammar τ).rootName =
    (steps.filterMap Step.rootName?).getLast?.or
      (steps.filterMap Step.expressionName?).head? := by
  induction steps using List.reverseRecOn with
  | nil => rfl
  | append_singleton steps s ih =>
    have hlast : ((steps ++ [s]).filterMap Step.rootName?).getLast? =
        s.rootName?.or (steps.filterMap Step.rootName?).getLast? := by
      cases h : s.rootName? <;> simp [h]
    have hfirst : ((steps ++ [s]).filterMap Step.expressionName?).head? =
        (steps.filterMap Step.expressionName?).head?.or s.expressionName? := by
      cases h : s.expressionName? <;> simp [h]
    rw [ofSteps_split, List.foldl_nil, rootName_step, ih, hlast, hfirst, Option.or_assoc,
      Option.or_assoc]

theorem isSome_expression?_foldl : ((steps.foldl step g).expression? n).isSome ↔
    (g.expression? n).isSome ∨ ∃ s ∈ steps, s.expressionName? = some n := by
  induction steps generalizing g with
  | nil => simp
  | cons s steps ih =>
    simp only [List.foldl_cons, ih, isSome_expression?_step, or_assoc, List.mem_cons,
      exists_eq_or_imp]

/-- There are the expressions that steps name. -/
theorem isSome_expression?_ofSteps : ((ofSteps name steps : Grammar τ).expression? n).isSome ↔
    ∃ s ∈ steps, s.expressionName? = some n :=
  (isSome_expression?_foldl (empty name) steps n).trans (or_iff_right Bool.false_ne_true)

/-- Steps that put no expression in place of it add to it, one after the other. -/
theorem rulesOf_foldl (h : ∀ s ∈ steps, ¬ s.Defines n) :
    (steps.foldl step g).rulesOf n = g.rulesOf n ++ steps.flatMap (Step.rulesFor n) := by
  induction steps generalizing g with
  | nil => exact (List.append_nil _).symm
  | cons s steps ih =>
    obtain ⟨hs, hsteps⟩ := List.forall_mem_cons.1 h
    rw [List.foldl_cons, ih _ hsteps, rulesOf_step g s n hs, List.append_assoc,
      List.flatMap_cons]

/-- An expression has the rules that it was last defined with, and those that were added since. -/
theorem rulesOf_ofSteps (d : Expression τ)
    (h : Step.IsLast (Step.Defines d.name) steps before (.define d) after) :
    (ofSteps name steps).rulesOf d.name = d.rules ++ after.flatMap (Step.rulesFor d.name) := by
  rw [h.eq_append, ofSteps_split, rulesOf_foldl _ _ _ h.none_after]
  exact congrArg (· ++ _) (rulesOf_define (ofSteps name before) d)

theorem import?_foldl (h : ∀ s ∈ steps, s.importName? g.name ≠ some n) :
    (steps.foldl step g).import? n = g.import? n := by
  induction steps generalizing g with
  | nil => rfl
  | cons s steps ih =>
    obtain ⟨hs, hsteps⟩ := List.forall_mem_cons.1 h
    have hsteps' : ∀ t ∈ steps, t.importName? (g.step s).name ≠ some n := by
      rwa [name_step]
    rw [List.foldl_cons, ih _ hsteps', import?_step, if_neg hs]

/-- The import with a name is what the last step imported that imported something with the name. -/
theorem import?_ofSteps (s : Step τ)
    (h : Step.IsLast (fun t => t.importName? name = some n) steps before s after) :
    (ofSteps name steps).import? n = s.imported? (ofSteps name before) := by
  have hs : s.importName? (ofSteps name before).name = some n := by
    rw [name_ofSteps]
    exact h.holds
  have hafter : ∀ t ∈ after, t.importName? ((ofSteps name before).step s).name ≠ some n := by
    rw [name_step, name_ofSteps]
    exact h.none_after
  rw [h.eq_append, ofSteps_split, import?_foldl _ _ _ hafter, import?_step, if_pos hs]

theorem import?_ofSteps_eq_some_iff (i : Grammar τ) : (ofSteps name steps).import? n = some i ↔
    ∃ before s after, Step.IsLast (fun t => t.importName? name = some n) steps before s after ∧
      s.imported? (ofSteps name before) = some i := by
  constructor
  · intro h
    rcases Step.exists_isLast (fun t => t.importName? name = some n) steps with
      hnone | ⟨before, s, after, hlast⟩
    · have hempty := import?_foldl (empty name) steps n hnone
      rw [ofSteps, hempty] at h
      cases h
    · rw [import?_ofSteps name steps before after n s hlast] at h
      exact ⟨before, s, after, hlast, h⟩
  · rintro ⟨before, s, after, hlast, hi⟩
    rw [import?_ofSteps name steps before after n s hlast, hi]

end

/-- A reference with the name of an import looks for its expression there. -/
theorem resolve_import {g i : Grammar τ} {n : String} (h : g.import? n = some i)
    (hname : i.name = n) (expression referrer : String) : g.resolve ⟨some n, expression⟩ referrer =
      match i.expression? expression with
      | some e => .ok (i, e)
      | none => .error (.unknownExpression expression n referrer) := by
  subst hname
  have htarget : g.target? ⟨some i.name, expression⟩ = some i := by
    simp only [target?, h]
  cases he : i.expression? expression <;> simp only [resolve, htarget, he]

/-- **A grammar is what its steps say.**  Its root, the rules of its expressions and its imports are
those that the last step about them has left, with all rules that were added since; an import is the
grammar that was imported, and a reference to it looks nowhere else. -/
theorem ofSteps_says (name : String) (steps : List (Step τ)) :
    let g : Grammar τ := ofSteps name steps
    g.name = name ∧
    g.rootName = (steps.filterMap Step.rootName?).getLast?.or
      (steps.filterMap Step.expressionName?).head? ∧
    (∀ e, g.root? = some e ↔ ∃ n, g.rootName = some n ∧ g.expression? n = some e) ∧
    (∀ n, (g.expression? n).isSome ↔ ∃ s ∈ steps, s.expressionName? = some n) ∧
    (∀ n e, g.expression? n = some e → e.name = n ∧
      ((∀ s ∈ steps, ¬ s.Defines n) → e.rules = steps.flatMap (Step.rulesFor n)) ∧
      ∀ before d after, d.name = n →
        Step.IsLast (Step.Defines n) steps before (.define d) after →
        e.rules = d.rules ++ after.flatMap (Step.rulesFor n)) ∧
    ∀ n i, (g.import? n = some i ↔ ∃ before s after,
        Step.IsLast (fun t => t.importName? name = some n) steps before s after ∧
        s.imported? (ofSteps name before) = some i) ∧
      (g.import? n = some i → ∀ expression referrer,
        g.resolve ⟨some n, expression⟩ referrer = match i.expression? expression with
          | some e => .ok (i, e)
          | none => .error (.unknownExpression expression n referrer)) := by
  intro g
  have hkeys : g.IsKeyed := isKeyed_ofSteps name steps
  refine ⟨name_ofSteps name steps, rootName_ofSteps name steps, fun e => Option.bind_eq_some_iff,
    fun n => isSome_expression?_ofSteps name steps n, fun n e he => ?_, fun n i => ?_⟩
  · have hrules : g.rulesOf n = e.rules := by
      rw [rulesOf, he]
      rfl
    refine ⟨hkeys.name_of_expression? he, fun hnone => ?_, ?_⟩
    · rw [← hrules]
      exact rulesOf_foldl (empty name) steps n hnone
    · rintro before d after rfl hlast
      rw [← hrules]
      exact rulesOf_ofSteps name steps before after d hlast
  · exact ⟨import?_ofSteps_eq_some_iff name steps n i,
      fun hi => resolve_import hi (hkeys.name_of_import? hi)⟩

/-- A grammar that is imported into itself is not found there with what is added to it later. -/
example : (ofSteps "g" [.extend "a" [], .useSelf, .extend "b" []] : Grammar Empty).resolve
    ⟨some "g", "b"⟩ "a" = .error (.unknownExpression "b" "g" "a") := rfl

end Grammar

end OrderedChoice
