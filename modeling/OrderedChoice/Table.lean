/-!
# Tables

A table is a list of members under keys.  A key leads to the first member under it, and a member
that is put under a key takes the place of the one that is there.

* `setEntry` puts a member under a key, and `lookup_setEntry` says what is found afterwards;
* `lookup_of_mem`: where keys differ, every member is found under its key.
-/

namespace OrderedChoice

variable {α : Type} {key other : String} {a : α} {table : List (String × α)}

/-- The table with a member under a key: in place of the one that is there, else at the end. -/
def setEntry (key : String) (a : α) : List (String × α) → List (String × α)
  | [] => [(key, a)]
  | (k, b) :: es => if k = key then (k, a) :: es else (k, b) :: setEntry key a es

theorem lookup_setEntry : (setEntry key a table).lookup other =
    if key = other then some a else table.lookup other := by
  induction table with
  | nil =>
    by_cases h : key = other
    · subst h
      simp [setEntry]
    · simp [setEntry, List.lookup_cons, h, beq_eq_false_iff_ne.2 (Ne.symm h)]
  | cons e es ih =>
    obtain ⟨k, b⟩ := e
    by_cases hk : k = key
    · subst hk
      by_cases h : k = other
      · subst h
        simp [setEntry]
      · simp [setEntry, List.lookup_cons, h, beq_eq_false_iff_ne.2 (Ne.symm h)]
    · rw [setEntry, if_neg hk, List.lookup_cons, List.lookup_cons, ih]
      by_cases h : other = k
      · subst h
        simp [Ne.symm hk]
      · simp [beq_eq_false_iff_ne.2 h]

/-- Members under other keys are found as before. -/
theorem lookup_filter_ne (h : key ≠ other) :
    (table.filter (·.1 != key)).lookup other = table.lookup other := by
  induction table with
  | nil => rfl
  | cons e es ih =>
    obtain ⟨k, b⟩ := e
    by_cases hk : k = key
    · subst hk
      simp [List.lookup_cons, beq_eq_false_iff_ne.2 h.symm, ih]
    · simp [List.lookup_cons, hk, ih]

theorem mem_setEntry {e : String × α} (h : e ∈ setEntry key a table) :
    e = (key, a) ∨ e ∈ table := by
  induction table with
  | nil => exact .inl (List.mem_singleton.1 h)
  | cons e' es ih =>
    obtain ⟨k, b⟩ := e'
    unfold setEntry at h
    split at h
    · rename_i hk
      subst hk
      rcases List.mem_cons.1 h with rfl | h
      · exact .inl rfl
      · exact .inr (List.mem_cons_of_mem _ h)
    · rcases List.mem_cons.1 h with rfl | h
      · exact .inr List.mem_cons_self
      · exact (ih h).imp_right (List.mem_cons_of_mem _)

theorem setEntry_of_not_mem (h : key ∉ table.map Prod.fst) (a : α) :
    setEntry key a table = table ++ [(key, a)] := by
  induction table with
  | nil => rfl
  | cons e es ih =>
    simp only [List.map_cons, List.mem_cons, not_or] at h
    simp [setEntry, Ne.symm h.1, ih h.2]

/-- What is found is in the table. -/
theorem mem_of_lookup (h : table.lookup key = some a) : (key, a) ∈ table := by
  obtain ⟨before, after, rfl, -⟩ := List.lookup_eq_some_iff.1 h
  exact List.mem_append_right _ List.mem_cons_self

theorem lookup_eq_none : table.lookup key = none ↔ ∀ e ∈ table, e.1 ≠ key :=
  List.lookup_eq_none_iff.trans <| forall₂_congr fun _ _ => bne_iff_ne.trans ne_comm

theorem lookup_of_mem (hkeys : (table.map Prod.fst).Nodup) (h : (key, a) ∈ table) :
    table.lookup key = some a := by
  induction table with
  | nil => cases h
  | cons e es ih =>
    rw [List.map_cons, List.nodup_cons] at hkeys
    rcases List.mem_cons.1 h with rfl | h
    · exact List.lookup_cons_self
    · have hne : key ≠ e.1 := by
        rintro rfl
        exact hkeys.1 (List.mem_map.2 ⟨_, h, rfl⟩)
      rw [List.lookup_cons, beq_eq_false_iff_ne.2 hne]
      exact ih hkeys.2 h

end OrderedChoice
