import OrderedChoice.Grammar.Rule
import OrderedChoice.Table

/-!
# Grammars

A `Grammar` is a table of expressions with the name of the one to start from, and a table of
imported grammars.  Nothing is checked while a grammar is built: names that lead nowhere are found
when they are looked up.

The keys of both tables are kept beside the members, which have names of their own.  The steps by
which a grammar is built put every member under its name; but whoever is handed an expression of the
table may put one of another name in its place, and the key stays.

* `Grammar.extend`, `define`, `setRoot` and `use` are the steps by which a grammar is built;
* `Grammar.assign` is what is done to an expression that has been handed out;
* `Grammar.ofSteps` applies a list of steps;
* `Grammar.resolve` looks up a reference;
* `expression?_assign` and `import?_useAs` say what a change makes of later look-ups.
-/

namespace OrderedChoice

/-- A table of expressions with imports. -/
structure Grammar (τ : Type) where
  name : String
  /-- The name of the expression to start from. -/
  rootName : Option String
  expressionTable : List (String × Expression τ)
  importTable : List (String × Grammar τ)

namespace Grammar

variable {τ : Type}

/-- A grammar without expressions. -/
def empty (name : String) : Grammar τ := ⟨name, none, [], []⟩

/-- The grammar of expressions and imports that are each found under their name. -/
def ofMembers (name : String) (rootName : Option String) (expressions : List (Expression τ))
    (imports : List (Grammar τ)) : Grammar τ :=
  ⟨name, rootName, expressions.map fun e => (e.name, e), imports.map fun i => (i.name, i)⟩

/-- All expressions of the table. -/
def expressions (g : Grammar τ) : List (Expression τ) := g.expressionTable.map Prod.snd

/-- All imported grammars. -/
def imports (g : Grammar τ) : List (Grammar τ) := g.importTable.map Prod.snd

@[simp] theorem expressions_ofMembers (name : String) (rootName : Option String)
    (expressions : List (Expression τ)) (imports : List (Grammar τ)) :
    (ofMembers name rootName expressions imports).expressions = expressions := by
  simp [Grammar.expressions, ofMembers, Function.comp_def]

@[simp] theorem imports_ofMembers (name : String) (rootName : Option String)
    (expressions : List (Expression τ)) (imports : List (Grammar τ)) :
    (ofMembers name rootName expressions imports).imports = imports := by
  simp [Grammar.imports, ofMembers, Function.comp_def]

/-! ### Look-up -/

/-- The expression under a key. -/
def expression? (g : Grammar τ) (key : String) : Option (Expression τ) :=
  g.expressionTable.lookup key

/-- The imported grammar under a key. -/
def import? (g : Grammar τ) (key : String) : Option (Grammar τ) := g.importTable.lookup key

/-- The expression to start from. -/
def root? (g : Grammar τ) : Option (Expression τ) := g.rootName.bind g.expression?

/-- The grammar in which a reference looks for its expression: the active one, an import of it,
or the active one again where it is called by its own name. -/
def target? (active : Grammar τ) (r : Reference) : Option (Grammar τ) :=
  match r.grammar with
  | none => some active
  | some name =>
    match active.import? name with
    | some g => some g
    | none => if name = active.name then some active else none

/-- The expression that a reference leads to, with the grammar in which references inside it are
looked up.  The referrer is named in errors. -/
def resolve (active : Grammar τ) (r : Reference) (referrer : String) :
    Except GrammarError (Grammar τ × Expression τ) :=
  match active.target? r with
  | none => .error (.unknownGrammar (r.grammar.getD "") active.name referrer)
  | some g =>
    match g.expression? r.expression with
    | some e => .ok (g, e)
    | none => .error (.unknownExpression r.expression g.name referrer)

/-! ### Building -/

/-- The grammar with a root if it has had none so far. -/
def withRoot (g : Grammar τ) (name : String) : Grammar τ :=
  { g with rootName := g.rootName.or (some name) }

/-- Puts an expression under a key, whatever its name.  The first expression of a grammar becomes
its root. -/
def assign (g : Grammar τ) (key : String) (e : Expression τ) : Grammar τ :=
  let g := g.withRoot key
  { g with expressionTable := setEntry key e g.expressionTable }

/-- Puts an expression in place of the one with its name. -/
def define (g : Grammar τ) (e : Expression τ) : Grammar τ := g.assign e.name e

/-- The expression under a key, or a new one without rules that has the key as its name. -/
def expressionOrNew (g : Grammar τ) (key : String) : Expression τ :=
  (g.expression? key).getD ⟨key, []⟩

/-- Adds rules to the end of an expression, which is created if there is none. -/
def extend (g : Grammar τ) (key : String) (rules : List (Rule τ)) : Grammar τ :=
  g.assign key ((g.expressionOrNew key).append rules)

/-- Sets the name of the expression to start from. -/
def setRoot (g : Grammar τ) (name : String) : Grammar τ := { g with rootName := some name }

/-- Puts an imported grammar under a key. -/
def useAs (g : Grammar τ) (key : String) (imported : Grammar τ) : Grammar τ :=
  { g with importTable := setEntry key imported g.importTable }

/-- Imports a grammar under its own name. -/
def use (g imported : Grammar τ) : Grammar τ := g.useAs imported.name imported

/-- A step in the building of a grammar. -/
inductive Step (τ : Type) where
  | extend (name : String) (rules : List (Rule τ))
  | define (e : Expression τ)
  | setRoot (name : String)
  | use (g : Grammar τ)
  /-- Imports the grammar as it is at this point into itself. -/
  | useSelf

/-- The grammar after a step. -/
def step (g : Grammar τ) : Step τ → Grammar τ
  | .extend name rules => g.extend name rules
  | .define e => g.define e
  | .setRoot name => g.setRoot name
  | .use imported => g.use imported
  | .useSelf => g.use g

/-- The grammar that steps build. -/
def ofSteps (name : String) (steps : List (Step τ)) : Grammar τ := steps.foldl step (empty name)

/-! ### What is put in is found -/

theorem expression?_assign (g : Grammar τ) (key : String) (e : Expression τ) (other : String) :
    (g.assign key e).expression? other = if key = other then some e else g.expression? other :=
  lookup_setEntry

theorem expression?_define (g : Grammar τ) (e : Expression τ) (name : String) :
    (g.define e).expression? name = if e.name = name then some e else g.expression? name :=
  g.expression?_assign e.name e name

theorem expression?_extend (g : Grammar τ) (key : String) (rules : List (Rule τ))
    (other : String) :
    (g.extend key rules).expression? other =
      if key = other then some ((g.expressionOrNew key).append rules) else g.expression? other :=
  g.expression?_assign key _ other

theorem import?_useAs (g : Grammar τ) (key : String) (imported : Grammar τ) (other : String) :
    (g.useAs key imported).import? other = if key = other then some imported else g.import? other :=
  lookup_setEntry

theorem import?_use (g imported : Grammar τ) (name : String) :
    (g.use imported).import? name =
      if imported.name = name then some imported else g.import? name :=
  g.import?_useAs imported.name imported name

/-- Where all are under their names, a name leads to the first that has it. -/
theorem expression?_ofMembers (name : String) (rootName : Option String)
    (expressions : List (Expression τ)) (imports : List (Grammar τ)) (key : String) :
    (ofMembers name rootName expressions imports).expression? key =
      expressions.find? fun e => e.name == key := by
  induction expressions with
  | nil => rfl
  | cons e es ih =>
    have hcons : (ofMembers name rootName (e :: es) imports).expression? key =
        if key == e.name then some e
        else (ofMembers name rootName es imports).expression? key := by
      simp only [expression?, ofMembers, List.map_cons, List.lookup_cons]
      split <;> simp [*]
    rw [hcons, ih, List.find?_cons, Bool.beq_comm]
    split <;> simp [*]

/-! ### Size -/

mutual

/-- The number of expressions in a grammar and all its imports. -/
def expressionCount : Grammar τ → Nat
  | ⟨_, _, expressionTable, importTable⟩ =>
    expressionTable.length + expressionCounts importTable

/-- The number of expressions in the grammars of a table. -/
def expressionCounts : List (String × Grammar τ) → Nat
  | [] => 0
  | (_, g) :: gs => expressionCount g + expressionCounts gs

end

end Grammar

end OrderedChoice
