import OrderedChoice.Proofs.Parts

/-!
# What is looked up in a grammar, and what is not

The parts of a grammar are found by paths: `g.node? path` is where the imports with the names of the
path lead to, one inside the other.  `g.LooksUp path name` says that an expression of that name is
looked up in the part at a path, by a reference that can be reached from the root or because it is
the root, and `g.Qualifies path name` that such a reference is qualified by the name there.

A `Change` is an `Edit` of the expressions or imports of some part, and it is unseen if it concerns
nothing that is looked up (`Change.IsUnseen`).

* `Grammar.LooksUp.qualifies`: where something is looked up in an import, a reference goes there;
* `Grammar.sameOn_editAt`, `Grammar.sameOn_foldl`: unseen changes leave alone all that is looked up.
-/

namespace OrderedChoice

variable {τ : Type}

/-- A rule of the expression has a symbol with the reference. -/
def Expression.Mentions (e : Expression τ) (ref : Reference) : Prop :=
  ∃ rule ∈ e.rules, ∃ x ∈ rule.symbols, x.kind = .reference ref

namespace Grammar

/-! ### Paths -/

/-- The part of a grammar at a path. -/
def node? : Grammar τ → List String → Option (Grammar τ)
  | g, [] => some g
  | g, name :: path => (g.import? name).bind fun i => node? i path

/-- The path from the active grammar to the one in which a reference looks for its expression. -/
def descent (active : Grammar τ) (ref : Reference) : List String :=
  match ref.grammar with
  | none => []
  | some name => if (active.import? name).isSome then [name] else []

theorem node?_append (g : Grammar τ) (path path' : List String) :
    g.node? (path ++ path') = (g.node? path).bind fun h => h.node? path' := by
  induction path generalizing g with
  | nil => rfl
  | cons name path ih =>
    simp only [List.cons_append, node?]
    cases g.import? name with
    | none => rfl
    | some i => exact ih i

theorem node?_descent {h target : Grammar τ} {ref : Reference} (ht : h.target? ref = some target) :
    h.node? (h.descent ref) = some target := by
  unfold target? at ht
  unfold descent
  cases hq : ref.grammar with
  | none => simpa [hq, node?] using ht
  | some name =>
    simp only [hq] at ht ⊢
    cases hi : h.import? name with
    | some i => simpa [hi, node?] using ht
    | none =>
      simp only [hi] at ht ⊢
      split at ht
      · exact ht
      · cases ht

/-! ### Look-ups -/

/-- An expression with the name is looked up in the part at the path: it is the root, or there is a
reference to it in an expression that has been looked up. -/
inductive LooksUp (g : Grammar τ) : List String → String → Prop
  | root {name : String} : g.rootName = some name → LooksUp g [] name
  | refer {path : List String} {name : String} {h : Grammar τ} {e : Expression τ}
      {ref : Reference} : LooksUp g path name → g.node? path = some h →
      h.expression? name = some e → e.Mentions ref → (h.target? ref).isSome = true →
      LooksUp g (path ++ h.descent ref) ref.expression

/-- The expression is in the part at the path, and can be reached there. -/
def Reaches (g : Grammar τ) (path : List String) (e : Expression τ) : Prop :=
  ∃ key, g.LooksUp path key ∧ ∃ h, g.node? path = some h ∧ h.expression? key = some e

/-- A reference that can be reached in the part at the path has the name as its qualifier. -/
def Qualifies (g : Grammar τ) (path : List String) (name : String) : Prop :=
  ∃ e ref, g.Reaches path e ∧ e.Mentions ref ∧ ref.grammar = some name

/-- To look something up in an import it takes a reference to the import. -/
theorem LooksUp.qualifies {g : Grammar τ} {path : List String} {n : String}
    (h : g.LooksUp path n) : ∀ {before name behind}, path = before ++ name :: behind →
      g.Qualifies before name := by
  induction h with
  | root =>
    intro before name behind hpath
    simp at hpath
  | @refer path n h e ref hlooks hnode he href _ ih =>
    intro before name behind hpath
    unfold descent at hpath
    split at hpath
    · exact ih (by simpa using hpath)
    · rename_i q hq
      split at hpath
      · -- the last import of the path is that of this reference, all others come from before
        rcases List.eq_nil_or_concat behind with rfl | ⟨behind, last, rfl⟩
        · obtain ⟨rfl, rfl⟩ : path = before ∧ q = name := by simpa using hpath
          exact ⟨e, ref, ⟨n, hlooks, h, hnode, he⟩, href, hq⟩
        · have hsplit : path ++ [q] = (before ++ name :: behind) ++ [last] := by
            simpa using hpath
          exact ih (List.append_inj' hsplit rfl).1
      · exact ih (by simpa using hpath)

end Grammar

/-! ### Changes -/

/-- A change of one table of a grammar. -/
inductive Edit (τ : Type) where
  | putExpression (key : String) (e : Expression τ)
  | dropExpression (key : String)
  | putImport (key : String) (i : Grammar τ)
  | dropImport (key : String)

namespace Edit

/-- The key of the expression that is put or dropped. -/
def expressionKey? : Edit τ → Option String
  | putExpression key _ | dropExpression key => some key
  | putImport .. | dropImport _ => none

/-- The key of the import that is put or dropped. -/
def importKey? : Edit τ → Option String
  | putExpression .. | dropExpression _ => none
  | putImport key _ | dropImport key => some key

end Edit

/-- An edit of the part of a grammar at a path. -/
structure Change (τ : Type) where
  path : List String
  edit : Edit τ

namespace Grammar

/-- The grammar after an edit.  The name of its root stays. -/
def edit (g : Grammar τ) : Edit τ → Grammar τ
  | .putExpression key e => { g with expressionTable := setEntry key e g.expressionTable }
  | .dropExpression key => { g with expressionTable := g.expressionTable.filter (·.1 != key) }
  | .putImport key i => g.useAs key i
  | .dropImport key => { g with importTable := g.importTable.filter (·.1 != key) }

/-- The grammar after an edit of the part at a path, if there is one. -/
def editAt : Grammar τ → Edit τ → List String → Grammar τ
  | g, d, [] => g.edit d
  | g, d, key :: path =>
    match g.import? key with
    | some i => g.useAs key (editAt i d path)
    | none => g

/-- The grammar after a change. -/
def change (g : Grammar τ) (c : Change τ) : Grammar τ := g.editAt c.edit c.path

variable (g : Grammar τ) (d : Edit τ) (path : List String)

theorem expression?_edit {n : String} (h : d.expressionKey? ≠ some n) :
    (g.edit d).expression? n = g.expression? n := by
  cases d with
  | putExpression key e => exact lookup_setEntry.trans (if_neg fun hn => h (congrArg some hn))
  | dropExpression key => exact lookup_filter_ne fun hn => h (congrArg some hn)
  | putImport key i => rfl
  | dropImport key => rfl

theorem import?_edit {n : String} (h : d.importKey? ≠ some n) :
    (g.edit d).import? n = g.import? n := by
  cases d with
  | putExpression key e => rfl
  | dropExpression key => rfl
  | putImport key i => exact lookup_setEntry.trans (if_neg fun hn => h (congrArg some hn))
  | dropImport key => exact lookup_filter_ne fun hn => h (congrArg some hn)

theorem name_edit : (g.edit d).name = g.name := by cases d <;> rfl

theorem rootName_edit : (g.edit d).rootName = g.rootName := by cases d <;> rfl

theorem name_editAt : (g.editAt d path).name = g.name := by
  cases path with
  | nil => exact name_edit g d
  | cons name path =>
    simp only [editAt]
    split <;> rfl

theorem rootName_editAt : (g.editAt d path).rootName = g.rootName := by
  cases path with
  | nil => exact rootName_edit g d
  | cons name path =>
    simp only [editAt]
    split <;> rfl

end Grammar

/-! ### What is left alone -/

/-- The grammars have the same name, the same expressions of some names and imports of the same of
some names. -/
structure Grammar.SameAt (U Q : String → Prop) (h h' : Grammar τ) : Prop where
  name_eq : h'.name = h.name
  expression?_eq : ∀ n, U n → h'.expression? n = h.expression? n
  isSome_import? : ∀ n, Q n → (h'.import? n).isSome = (h.import? n).isSome

/-- The parts of the grammars at the same paths are the same in what is looked up there. -/
def Grammar.SameOn (U Q : List String → String → Prop) (g g' : Grammar τ) : Prop :=
  ∀ path h, (∃ n, U path n) → g.node? path = some h →
    ∃ h', g'.node? path = some h' ∧ h.SameAt (U path) (Q path) h'

namespace Grammar

variable {U Q : List String → String → Prop} {g g' g'' : Grammar τ}

theorem SameAt.refl (U Q : String → Prop) (h : Grammar τ) : h.SameAt U Q h :=
  ⟨rfl, fun _ _ => rfl, fun _ _ => rfl⟩

theorem SameAt.trans {U Q : String → Prop} {h h' h'' : Grammar τ} (hs : h.SameAt U Q h')
    (hs' : h'.SameAt U Q h'') : h.SameAt U Q h'' where
  name_eq := hs'.name_eq.trans hs.name_eq
  expression?_eq n hn := (hs'.expression?_eq n hn).trans (hs.expression?_eq n hn)
  isSome_import? n hn := (hs'.isSome_import? n hn).trans (hs.isSome_import? n hn)

/-- References with the qualifiers look in corresponding grammars, if they find them. -/
theorem SameAt.isSome_target? {U Q : String → Prop} {h h' : Grammar τ} (hs : h.SameAt U Q h')
    {ref : Reference} (hq : ∀ n, ref.grammar = some n → Q n) :
    (h'.target? ref).isSome = (h.target? ref).isSome := by
  unfold target?
  cases hn : ref.grammar with
  | none => rfl
  | some n =>
    have himport := hs.isSome_import? n (hq n hn)
    simp only [hs.name_eq]
    cases hi : h.import? n with
    | some i =>
      rw [hi, Option.isSome_some, Option.isSome_iff_exists] at himport
      obtain ⟨i', hi'⟩ := himport
      simp only [hi', Option.isSome_some]
    | none =>
      rw [hi, Option.isSome_none, Option.isSome_eq_false_iff, Option.isNone_iff_eq_none] at himport
      simp only [himport]
      split <;> rfl

theorem SameAt.descent_eq {U Q : String → Prop} {h h' : Grammar τ} (hs : h.SameAt U Q h')
    {ref : Reference} (hq : ∀ n, ref.grammar = some n → Q n) : h'.descent ref = h.descent ref := by
  unfold descent
  cases hn : ref.grammar with
  | none => rfl
  | some n => simp only [hs.isSome_import? n (hq n hn)]

theorem SameOn.refl (U Q : List String → String → Prop) (g : Grammar τ) : g.SameOn U Q g :=
  fun _ h _ hnode => ⟨h, hnode, .refl _ _ h⟩

theorem SameOn.trans (hs : g.SameOn U Q g') (hs' : g'.SameOn U Q g'') : g.SameOn U Q g'' := by
  intro path h hpath hnode
  obtain ⟨h', hnode', hsame⟩ := hs path h hpath hnode
  obtain ⟨h'', hnode'', hsame'⟩ := hs' path h' hpath hnode'
  exact ⟨h'', hnode'', hsame.trans hsame'⟩

/-- An edit that concerns nothing that is looked up leaves all that is looked up alone. -/
theorem sameOn_editAt (d : Edit τ) (path : List String)
    (hUQ : ∀ before name behind n, U (before ++ name :: behind) n → Q before name)
    (hU : ∀ n, d.expressionKey? = some n → ¬ U path n)
    (hQ : ∀ n, d.importKey? = some n → ¬ Q path n) : g.SameOn U Q (g.editAt d path) := by
  induction path generalizing g U Q with
  | nil =>
    rintro (_ | ⟨name, path⟩) h ⟨n, hn⟩ hnode
    · cases hnode
      exact ⟨_, rfl, name_edit g d, fun n hn => expression?_edit g d fun hd => hU n hd hn,
        fun n hn => congrArg _ (import?_edit g d fun hd => hQ n hd hn)⟩
    · -- the import that leads further is not the one that is edited
      have hne : d.importKey? ≠ some name := fun hd => hQ name hd (hUQ [] name path n hn)
      have himport : (g.edit d).import? name = g.import? name := import?_edit g d hne
      refine ⟨h, ?_, .refl _ _ h⟩
      simp only [editAt, node?, himport]
      exact hnode
  | cons name path ih =>
    simp only [editAt]
    cases hi : g.import? name with
    | none => exact .refl U Q g
    | some i =>
      rintro (_ | ⟨name', path'⟩) h ⟨n, hn⟩ hnode
      · cases hnode
        refine ⟨_, rfl, rfl, fun _ _ => rfl, fun n _ => ?_⟩
        rw [import?_useAs]
        split
        · rename_i heq
          rw [← heq, hi]
          rfl
        · rfl
      · by_cases heq : name = name'
        · -- the path goes on inside the edited import
          subst heq
          have hsame : i.SameOn (fun p => U (name :: p)) (fun p => Q (name :: p))
              (i.editAt d path) := ih (fun before => hUQ (name :: before)) hU hQ
          simp only [node?, hi, Option.bind_some] at hnode
          obtain ⟨h', hnode', hh⟩ := hsame path' h ⟨n, hn⟩ hnode
          refine ⟨h', ?_, hh⟩
          simp only [node?, import?_useAs, if_true, Option.bind_some]
          exact hnode'
        · refine ⟨h, ?_, .refl _ _ h⟩
          simp only [node?, import?_useAs, if_neg heq]
          exact hnode

end Grammar

/-! ### Unseen changes -/

/-- The change concerns nothing that is looked up. -/
structure Change.IsUnseen (g : Grammar τ) (c : Change τ) : Prop where
  not_looksUp : ∀ n, c.edit.expressionKey? = some n → ¬ g.LooksUp c.path n
  not_qualifies : ∀ n, c.edit.importKey? = some n → ¬ g.Qualifies c.path n

namespace Grammar

theorem name_foldl (g : Grammar τ) (changes : List (Change τ)) :
    (changes.foldl change g).name = g.name := by
  induction changes generalizing g with
  | nil => rfl
  | cons c changes ih => exact (ih _).trans (name_editAt g c.edit c.path)

theorem rootName_foldl (g : Grammar τ) (changes : List (Change τ)) :
    (changes.foldl change g).rootName = g.rootName := by
  induction changes generalizing g with
  | nil => rfl
  | cons c changes ih => exact (ih _).trans (rootName_editAt g c.edit c.path)

/-- **Unseen changes leave alone all that is looked up**, one after the other. -/
theorem sameOn_foldl (g : Grammar τ) (changes : List (Change τ))
    (h : ∀ c ∈ changes, c.IsUnseen g) :
    g.SameOn g.LooksUp g.Qualifies (changes.foldl change g) := by
  -- what is looked up is told of the first grammar, whatever has been changed so far
  have hfrom : ∀ k : Grammar τ, k.SameOn g.LooksUp g.Qualifies (changes.foldl change k) := by
    induction changes with
    | nil => exact fun k => .refl _ _ k
    | cons c changes ih =>
      intro k
      have hc := h c List.mem_cons_self
      have hstep : k.SameOn g.LooksUp g.Qualifies (k.change c) :=
        sameOn_editAt c.edit c.path (fun _ _ _ _ hn => hn.qualifies rfl) hc.not_looksUp
          hc.not_qualifies
      exact hstep.trans (ih (fun c' hc' => h c' (List.mem_cons_of_mem c hc')) _)
  exact hfrom g

end Grammar

end OrderedChoice
