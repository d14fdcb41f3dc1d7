import OrderedChoice.Grammar.Basic

/-!
# Parts of a grammar

A grammar holds the expressions of its own table and those of its imports, which hold imports
again.  References never lead out of it.

* `Grammar.IsPartOf` is the relation of a grammar to those that it is imported into, at any depth;
* `Grammar.IsPartOf.of_resolve`: what a reference leads to is in a part of the same grammar;
* `Grammar.members` lists all expressions of all parts, and `Grammar.expressionCount` counts them.
-/

namespace OrderedChoice

namespace Grammar

variable {τ : Type}

/-- The grammar, an import of it, an import of such an import and so on. -/
inductive IsPartOf (h : Grammar τ) : Grammar τ → Prop
  | self : IsPartOf h h
  | ofImport {g i : Grammar τ} : i ∈ g.imports → IsPartOf h i → IsPartOf h g

variable {g h i : Grammar τ} {e : Expression τ}

theorem IsPartOf.import_of_mem (hp : h.IsPartOf g) (hi : i ∈ h.imports) : i.IsPartOf g := by
  induction hp with
  | self => exact .ofImport hi .self
  | ofImport hj _ ih => exact .ofImport hj ih

theorem sizeOf_lt_of_import (hi : i ∈ g.imports) : sizeOf i < sizeOf g := by
  obtain ⟨⟨key, i⟩, hentry, rfl⟩ := List.mem_map.1 hi
  obtain ⟨name, root, expressionTable, importTable⟩ := g
  have hlt : sizeOf (key, i) < sizeOf importTable := List.sizeOf_lt_of_mem hentry
  simp only [Prod.mk.sizeOf_spec] at hlt
  simp only [mk.sizeOf_spec]
  omega

theorem IsPartOf.sizeOf_le (hp : h.IsPartOf g) : sizeOf h ≤ sizeOf g := by
  induction hp with
  | self => exact Nat.le_refl _
  | ofImport hi _ ih => exact Nat.le_trans ih (Nat.le_of_lt (sizeOf_lt_of_import hi))

/-- The importer is not a part of the imported grammar. -/
theorem IsPartOf.ne_importer (hp : h.IsPartOf i) (hi : i ∈ g.imports) : h ≠ g := by
  rintro rfl
  have hle := hp.sizeOf_le
  have hlt := sizeOf_lt_of_import hi
  omega

/-! ### References stay inside -/

/-- The expression is found in the grammar, under some key. -/
def Holds (g : Grammar τ) (e : Expression τ) : Prop := ∃ key, g.expression? key = some e

theorem mem_of_expression? {key : String} (he : g.expression? key = some e) :
    e ∈ g.expressions := List.mem_map_of_mem (mem_of_lookup he)

theorem mem_of_import? {key : String} (hi : g.import? key = some i) : i ∈ g.imports :=
  List.mem_map_of_mem (mem_of_lookup hi)

theorem Holds.mem (he : g.Holds e) : e ∈ g.expressions := by
  obtain ⟨_, he⟩ := he
  exact mem_of_expression? he

theorem holds_of_root? (he : g.root? = some e) : g.Holds e := by
  obtain ⟨key, -, hkey⟩ := Option.bind_eq_some_iff.1 he
  exact ⟨key, hkey⟩

theorem mem_of_root? (he : g.root? = some e) : e ∈ g.expressions := (holds_of_root? he).mem

/-- What a reference leads to is found under the name that it asks for. -/
theorem expression?_of_resolve {r : Reference} {referrer : String}
    (hr : h.resolve r referrer = .ok (i, e)) : i.expression? r.expression = some e := by
  unfold resolve at hr
  split at hr
  · cases hr
  · split at hr
    · rename_i e' he
      cases hr
      exact he
    · cases hr

theorem IsPartOf.of_target? {r : Reference} (hp : h.IsPartOf g) (ht : h.target? r = some i) :
    i.IsPartOf g := by
  unfold target? at ht
  split at ht
  · cases ht
    exact hp
  · split at ht
    · rename_i j hj
      cases ht
      exact hp.import_of_mem (mem_of_import? hj)
    · split at ht
      · cases ht
        exact hp
      · cases ht

/-- What a reference leads to is an expression of a part. -/
theorem IsPartOf.of_resolve {r : Reference} {referrer : String} (hp : h.IsPartOf g)
    (hr : h.resolve r referrer = .ok (i, e)) : i.IsPartOf g ∧ e ∈ i.expressions := by
  unfold resolve at hr
  split at hr
  · cases hr
  · rename_i j ht
    split at hr
    · rename_i e' he
      cases hr
      exact ⟨hp.of_target? ht, mem_of_expression? he⟩
    · cases hr

/-! ### Look-ups in two grammars -/

section

variable {P : Grammar τ → Grammar τ → Prop} {g' : Grammar τ} {r : Reference}

/-- Where imports of the same name are related, a reference looks in related grammars. -/
theorem rel_target? (hg : P g g') (hname : g'.name = g.name)
    (himport : ∀ n, Option.Rel P (g.import? n) (g'.import? n)) (r : Reference) :
    Option.Rel P (g.target? r) (g'.target? r) := by
  unfold target?
  cases r.grammar with
  | none => exact .some hg
  | some n =>
    dsimp only
    have hrel := himport n
    generalize g.import? n = i, g'.import? n = i' at hrel ⊢
    cases hrel with
    | some hi => exact .some hi
    | none =>
      simp only [hname]
      split
      · exact .some hg
      · exact .none

/-- A reference leads to related expressions, or fails with the same error. -/
theorem rel_resolve {E : Grammar τ → Grammar τ → Expression τ → Expression τ → Prop}
    (hname : g'.name = g.name) (htarget : Option.Rel P (g.target? r) (g'.target? r))
    (hnames : ∀ k k', P k k' → k'.name = k.name)
    (hfound : ∀ k k', P k k' →
      Option.Rel (E k k') (k.expression? r.expression) (k'.expression? r.expression)) :
    (∃ k k' f f', (∀ referrer, g.resolve r referrer = .ok (k, f)) ∧
      (∀ referrer, g'.resolve r referrer = .ok (k', f')) ∧ P k k' ∧ E k k' f f') ∨
    ∀ referrer, ∃ x, g.resolve r referrer = .error x ∧ g'.resolve r referrer = .error x := by
  unfold resolve
  generalize g.target? r = t, g'.target? r = t' at htarget ⊢
  cases htarget with
  | none => exact .inr fun referrer => ⟨_, rfl, by rw [hname]⟩
  | @some k k' hk =>
    have hrel := hfound k k' hk
    dsimp only
    generalize k.expression? r.expression = f, k'.expression? r.expression = f' at hrel ⊢
    cases hrel with
    | none => exact .inr fun referrer => ⟨_, rfl, by rw [hnames k k' hk]⟩
    | some hf => exact .inl ⟨k, k', _, _, fun _ => rfl, fun _ => rfl, hk, hf⟩

end

/-! ### All expressions -/

mutual

/-- The expressions of a grammar and all its imports, each with the grammar it is in. -/
def members : Grammar τ → List (Grammar τ × Expression τ)
  | ⟨name, root, expressionTable, importTable⟩ =>
    (expressionTable.map fun entry => (⟨name, root, expressionTable, importTable⟩, entry.2)) ++
      membersOf importTable

/-- The expressions of the grammars of a table. -/
def membersOf : List (String × Grammar τ) → List (Grammar τ × Expression τ)
  | [] => []
  | (_, g) :: gs => members g ++ membersOf gs

end

mutual

theorem length_members : ∀ g : Grammar τ, g.members.length = g.expressionCount
  | ⟨name, root, expressionTable, importTable⟩ => by
    simp only [members, expressionCount, List.length_append, List.length_map]
    rw [length_membersOf importTable]

theorem length_membersOf : ∀ gs : List (String × Grammar τ),
    (membersOf gs).length = expressionCounts gs
  | [] => rfl
  | (_, g) :: gs => by
    simp only [membersOf, expressionCounts, List.length_append]
    rw [length_members g, length_membersOf gs]

end

theorem members_eq (g : Grammar τ) :
    g.members = (g.expressions.map fun e => (g, e)) ++ membersOf g.importTable := by
  cases g
  simp only [members, expressions, List.map_map, Function.comp_def]

theorem mem_membersOf {gs : List (String × Grammar τ)} {x : Grammar τ × Expression τ} :
    x ∈ membersOf gs ↔ ∃ g ∈ gs.map Prod.snd, x ∈ g.members := by
  induction gs with
  | nil => simp [membersOf]
  | cons g gs ih => simp [membersOf, ih]

theorem IsPartOf.mem_members (hp : h.IsPartOf g) (he : e ∈ h.expressions) :
    (h, e) ∈ g.members := by
  induction hp with
  | self =>
    rw [members_eq]
    exact List.mem_append_left _ (List.mem_map.2 ⟨e, he, rfl⟩)
  | ofImport hj _ ih =>
    rw [members_eq]
    exact List.mem_append_right _ (mem_membersOf.2 ⟨_, hj, ih⟩)

end Grammar

end OrderedChoice
