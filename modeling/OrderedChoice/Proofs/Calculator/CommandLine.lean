import OrderedChoice.Calculator.Run
import OrderedChoice.Json.Coding
import OrderedChoice.Proofs.Calculator.Correctness
import OrderedChoice.Proofs.Errors
import OrderedChoice.Proofs.History

/-!
# The calculator on the command line

A run of the calculator evaluates its arguments one after the other in one session, writes a line
for each, and stops at the first that comes to an error.

* `Arguments.read_commandLine`: arguments that do not look like options are expressions;
* `evaluateInPlace_eq`: the expressions have no influence on one another, although they share a
  session and its machine;
* `outcome_cases`: an expression prints a line, or it nests more deeply than the configuration
  allows; nothing else can happen, as all references of the calculator lead somewhere;
* `evaluate_append`: the lines of expressions that print some follow one another, so that
  `evaluate_without_error` and `evaluate_first_error` give the output of all lists of expressions;
* `run_in_order` says what a run leaves behind.
-/

namespace OrderedChoice.Calculator

/-! ### Arguments -/

/-- The command line for expressions, with the path of a configuration if there is one. -/
def commandLine (path : Option String) (expressions : List String) : List String :=
  match path with
  | some p => "--config" :: p :: expressions
  | none => expressions

namespace Arguments

theorem kindOf_expression {text : String} (h : text.toList.head? ≠ some '-') :
    kindOf text = .expression text := by
  unfold kindOf
  split
  · rename_i heq
    exact absurd (congrArg List.head? heq) h
  · rename_i heq
    exact absurd (congrArg List.head? heq) h
  · rename_i heq
    exact absurd (congrArg List.head? heq) h
  · rfl

theorem readAfter_expressions (a : Arguments) {args : List String}
    (h : ∀ e ∈ args, e.toList.head? ≠ some '-') :
    readAfter a args = .ok { a with expressions := a.expressions ++ args } := by
  induction args generalizing a with
  | nil => rw [readAfter, List.append_nil]
  | cons e args ih =>
    obtain ⟨he, hargs⟩ := List.forall_mem_cons.1 h
    simp only [readAfter, kindOf_expression he]
    rw [ih (a.addExpression e) hargs]
    simp only [addExpression, List.append_assoc, List.singleton_append]

/-- A configuration and expressions are read as what they are. -/
theorem read_commandLine {path : Option String} {expressions : List String}
    (hne : expressions ≠ []) (hplain : ∀ e ∈ expressions, e.toList.head? ≠ some '-')
    (hpath : ∀ p, path = some p → p ≠ "" ∧ isOption p = false) :
    read (commandLine path expressions) = .ok ⟨expressions, path, false⟩ := by
  have hread : readAfter none (commandLine path expressions) =
      .ok ⟨expressions, path, false⟩ := by
    cases path with
    | none => exact readAfter_expressions none hplain
    | some p =>
      obtain ⟨hp, hoption⟩ := hpath p rfl
      have hkind : kindOf "--config" = .configNext := rfl
      have hconfig : none.setConfig p = .ok ⟨[], some p, false⟩ := by simp [setConfig, none, hp]
      simp only [commandLine, readAfter, hkind, hoption, hconfig, Except.bind]
      exact readAfter_expressions _ hplain
  simp only [read, hread, Except.bind]
  rw [if_neg (by simpa using hne)]

end Arguments

/-! ### Expressions on their own -/

/-- What an expression comes to in a session of its own. -/
def outcomeOf (config : Config) (expression : String) : Outcome Value :=
  ((Session.new grammar meaning config).parse expression).1.outcome

/-- An expression, parsed on its own, is to be answered by a line. -/
inductive Prints (config : Config) (expression : String) : String → Prop
  | integer {n : Int64} : outcomeOf config expression = .matched (.integer n) →
      Prints config expression (expression ++ " = " ++ Value.integerText n ++ "\n")
  | undefined {v : Value} : outcomeOf config expression = .matched v → (∀ n, v ≠ .integer n) →
      Prints config expression (expression ++ " = undefined\n")
  | noMatch : outcomeOf config expression = .mismatch →
      Prints config expression (expression ++ ": no match\n")

variable {config : Config} {expression : String}

section

set_option maxRecDepth 4000

theorem isClosed_grammar : grammar.isClosed = true := by
  unfold Grammar.isClosed
  rw [expressions_grammar]
  decide

theorem isClosed_operators : operators.isClosed = true := by
  unfold Grammar.isClosed
  rw [expressions_operators]
  decide

end

theorem resolves_of_mem_reachable {n : Node Action} (hn : n ∈ grammar.reachable) : n.Resolves := by
  obtain ⟨hpart, he⟩ := Grammar.isPartOf_of_mem_reachable hn
  refine Node.resolves_of_isClosed ?_ he
  rcases eq_of_isPartOf hpart with hg | hg
  · rw [hg]
    exact isClosed_grammar
  · rw [hg]
    exact isClosed_operators

/-- Only a limit on nesting can be at fault. -/
theorem depthExceeded_of_error {x : GrammarError} (h : outcomeOf config expression = .error x) :
    ∃ limit name, config.maxDepth = some limit ∧ x = .depthExceeded limit.toNat name := by
  obtain ⟨limit, name, rfl⟩ := Session.eq_depthExceeded_of_resolves
    (.new grammar meaning config) expression (congrArg Option.isSome root?_grammar)
    (fun n => resolves_of_mem_reachable) h
  obtain ⟨l, hl, rfl⟩ := Session.maxDepth_of_depthExceeded _ expression h
  exact ⟨l, name, hl, rfl⟩

/-- The calculator ends on every text, whatever its configuration. -/
theorem outcomeOf_ne_endless : outcomeOf config expression ≠ .endless := by
  obtain ⟨maxDepth, full⟩ := config
  cases maxDepth with
  | some limit => exact Session.parse_ends_of_limit expression rfl
  | none =>
    -- without a limit the root comes to a value or fails
    have hroot : ∃ r, Reads expression.toList rootExpression (.start expression.toList) r := by
      rcases decided_root expression.toList with h | ⟨d, q, -, h⟩
      · exact ⟨_, h⟩
      · exact ⟨_, h⟩
    obtain ⟨r, hr⟩ := hroot
    intro hendless
    have hanswer := (Session.answer?_parse_iff (.new grammar meaning ⟨none, full⟩) expression _).2
      ((Session.yields_iff root?_grammar).2 ⟨r, hr, rfl⟩)
    rw [outcomeOf] at hendless
    rw [hendless] at hanswer
    cases hanswer

/-- **An expression prints a line, or it nests too deeply.** -/
theorem outcome_cases (config : Config) (expression : String) :
    (∃ line, Prints config expression line) ∨
      ∃ x, outcomeOf config expression = .error x := by
  cases h : outcomeOf config expression with
  | matched v =>
    by_cases hv : ∃ n, v = .integer n
    · obtain ⟨n, rfl⟩ := hv
      exact .inl ⟨_, .integer h⟩
    · exact .inl ⟨_, .undefined h (not_exists.1 hv)⟩
  | mismatch => exact .inl ⟨_, .noMatch h⟩
  | error x => exact .inr ⟨x, rfl⟩
  | endless => exact absurd h outcomeOf_ne_endless

/-- Expressions of which none comes to an error print lines. -/
theorem exists_lines {expressions : List String}
    (h : ∀ e ∈ expressions, ∀ x, outcomeOf config e ≠ .error x) :
    ∃ lines, List.Forall₂ (Prints config) expressions lines := by
  induction expressions with
  | nil => exact ⟨[], .nil⟩
  | cons e expressions ih =>
    obtain ⟨he, hrest⟩ := List.forall_mem_cons.1 h
    obtain ⟨line, hline⟩ := (outcome_cases config e).resolve_right fun ⟨x, hx⟩ => he x hx
    obtain ⟨lines, hlines⟩ := ih hrest
    exact ⟨line :: lines, .cons hline hlines⟩

/-! ### Expressions in one session -/

/-- A session of the calculator, whatever it has parsed before. -/
def used (config : Config) (input : String) (m : Machine Action) : Session Action :=
  ⟨grammar, meaning, config, input, m⟩

/-- Evaluates expressions with one machine, which each parse leaves to the next. -/
def evaluateInPlace (s : Session Action) (stdout : String) : List String → Output
  | [] => ⟨0, stdout, ""⟩
  | expression :: rest =>
    match s.parseInPlace expression with
    | (.matched v, s) => evaluateInPlace s (stdout ++ line expression v) rest
    | (.mismatch, s) => evaluateInPlace s (stdout ++ noMatchLine expression) rest
    | (.error e, _) => failure stdout (Error.grammar e).message
    | (.endless, _) => failure stdout "expressions nest without end"

section

variable {input stdout text : String} {m : Machine Action} {rest : List String}

/-- What the session parsed before does not show in what comes next. -/
theorem evaluate_cons : evaluate (used config input m) stdout (expression :: rest) =
    match outcomeOf config expression with
    | .matched v => evaluate (used config expression (.start expression.toList))
        (stdout ++ line expression v) rest
    | .mismatch => evaluate (used config expression (.start expression.toList))
        (stdout ++ noMatchLine expression) rest
    | .error e => failure stdout (Error.grammar e).message
    | .endless => failure stdout "expressions nest without end" := by
  have hparse : (used config input m).parse expression =
      (((used config input m).parse expression).1,
        used config expression (.start expression.toList)) := rfl
  have houtcome : outcomeOf config expression =
      ((used config input m).parse expression).1.outcome := rfl
  rw [evaluate, hparse, houtcome]
  cases ((used config input m).parse expression).1 with
  | mk o log => cases o <;> rfl

theorem evaluate_cons_of_prints (h : Prints config expression text) :
    evaluate (used config input m) stdout (expression :: rest) =
      evaluate (used config expression (.start expression.toList)) (stdout ++ text) rest := by
  rw [evaluate_cons]
  cases h with
  | integer h =>
    rw [h]
    rfl
  | @undefined v h hv =>
    rw [h]
    cases v with
    | integer n => exact absurd rfl (hv n)
    | _ => rfl
  | noMatch h =>
    rw [h]
    rfl

/-- The lines of expressions follow one another. -/
theorem evaluate_append {before lines : List String}
    (h : List.Forall₂ (Prints config) before lines) :
    ∃ input' m', ∀ rest, evaluate (used config input m) stdout (before ++ rest) =
      evaluate (used config input' m') (stdout ++ String.join lines) rest := by
  induction h generalizing input m stdout with
  | nil => exact ⟨input, m, fun rest => by rw [String.join_nil, String.append_empty]; rfl⟩
  | cons hline _ ih =>
    obtain ⟨input', m', heval⟩ := ih
    refine ⟨input', m', fun rest => ?_⟩
    rw [List.cons_append, evaluate_cons_of_prints hline, heval, String.join_cons,
      String.append_assoc]

/-- Without an error there is a line for each expression. -/
theorem evaluate_without_error {expressions : List String}
    (h : ∀ e ∈ expressions, ∀ x, outcomeOf config e ≠ .error x) :
    ∃ lines, List.Forall₂ (Prints config) expressions lines ∧
      evaluate (used config input m) "" expressions = ⟨0, String.join lines, ""⟩ := by
  obtain ⟨lines, hlines⟩ := exists_lines h
  obtain ⟨input', m', heval⟩ := evaluate_append hlines
  refine ⟨lines, hlines, ?_⟩
  rw [← List.append_nil expressions, heval [], evaluate, String.empty_append]

/-- The first error ends the output. -/
theorem evaluate_first_error {before after : List String} {x : GrammarError}
    (h : ∀ e ∈ before, ∀ y, outcomeOf config e ≠ .error y)
    (hx : outcomeOf config expression = .error x) :
    ∃ lines, List.Forall₂ (Prints config) before lines ∧
      evaluate (used config input m) "" (before ++ expression :: after) =
        ⟨1, String.join lines, "Error: " ++ (Error.grammar x).message ++ "\n"⟩ := by
  obtain ⟨lines, hlines⟩ := exists_lines h
  obtain ⟨input', m', heval⟩ := evaluate_append hlines
  refine ⟨lines, hlines, ?_⟩
  rw [heval, evaluate_cons, hx, String.empty_append]
  rfl

end

/-- **Expressions have no influence on one another**: that they share a machine makes no difference
to a run. -/
theorem evaluateInPlace_eq (expressions : List String) (input input' stdout : String)
    (m m' : Machine Action) : evaluateInPlace (used config input m) stdout expressions =
      evaluate (used config input' m') stdout expressions := by
  induction expressions generalizing input input' stdout m m' with
  | nil => rfl
  | cons e rest ih =>
    have houtcome : ((used config input m).parse e).1.outcome = outcomeOf config e := rfl
    rw [evaluateInPlace, Session.parseInPlace_eq, houtcome, evaluate_cons]
    cases outcomeOf config e with
    | matched v => exact ih ..
    | mismatch => exact ih ..
    | error x => rfl
    | endless => rfl

/-! ### Runs -/

/-- **A run evaluates its expressions in order, each as if it were alone.**  Up to the first that
comes to an error it writes a line for each; the error, which can only be that of a limit on
nesting, is written apart and ends the run. -/
theorem run_in_order (L : Json.Library) (C : Json.Coding Config) (path : Option String)
    (expressions : List String) (files : Files) :
    (expressions ≠ [] → (∀ e ∈ expressions, e.toList.head? ≠ some '-') →
      (∀ p, path = some p → p ≠ "" ∧ Arguments.isOption p = false) →
      Arguments.read (commandLine path expressions) = .ok ⟨expressions, path, false⟩) ∧
    (path = none → configuration L C ⟨expressions, path, false⟩ files = .ok ⟨none, true⟩) ∧
    (∀ p, path = some p →
      configuration L C ⟨expressions, path, false⟩ files = fromFile L C p (files p)) ∧
    (∀ x, configuration L C ⟨expressions, path, false⟩ files = .error x →
      run L C ⟨expressions, path, false⟩ files = ⟨1, "", "Error: " ++ x.message ++ "\n"⟩) ∧
    ∀ config, configuration L C ⟨expressions, path, false⟩ files = .ok config →
      (∀ e x, outcomeOf config e = .error x →
        ∃ limit name, config.maxDepth = some limit ∧ x = .depthExceeded limit.toNat name) ∧
      ((∀ e ∈ expressions, ∀ x, outcomeOf config e ≠ .error x) →
        ∃ lines, List.Forall₂ (Prints config) expressions lines ∧
          run L C ⟨expressions, path, false⟩ files = ⟨0, String.join lines, ""⟩) ∧
      (∀ before e after x, expressions = before ++ e :: after →
        (∀ e' ∈ before, ∀ y, outcomeOf config e' ≠ .error y) → outcomeOf config e = .error x →
        ∃ lines, List.Forall₂ (Prints config) before lines ∧
          run L C ⟨expressions, path, false⟩ files =
            ⟨1, String.join lines, "Error: " ++ (Error.grammar x).message ++ "\n"⟩) ∧
      evaluateInPlace (.new grammar meaning config) "" expressions =
        run L C ⟨expressions, path, false⟩ files := by
  refine ⟨Arguments.read_commandLine, ?_, ?_, ?_, ?_⟩
  · rintro rfl
    rfl
  · rintro p rfl
    rfl
  · intro x hx
    rw [run, hx]
    rfl
  · intro config hconfig
    have hrun : run L C ⟨expressions, path, false⟩ files =
        evaluate (used config "" (.start [])) "" expressions := by
      rw [run, hconfig]
      rfl
    rw [hrun]
    refine ⟨fun e x => depthExceeded_of_error, evaluate_without_error, ?_, ?_⟩
    · rintro before e after x rfl hbefore hx
      exact evaluate_first_error hbefore hx
    · exact evaluateInPlace_eq expressions "" "" "" _ _

section

set_option maxRecDepth 4000

/-- Files that all hold the same text. -/
def filesOf (text : String) : Files := fun _ => .ok text.toUTF8

/-- A number nests six expressions deep, a number in parentheses more deeply. -/
theorem run_in_order_nested :
    (Arguments.read ["--config", "calc.json", "1", "(1)", "2"]).map
        (run .bundled Config.coding · (filesOf "\x7b\"max_depth\":6\x7d")) =
      .ok ⟨1, "1 = 1\n", "Error: Grammar error: Depth exceeded: recursion limit 6 reached " ++
        "while matching 'factor'\n"⟩ := by
  have hfirst : outcomeOf ⟨some 6, false⟩ "1" = .matched (.integer 1) := by
    rw [outcomeOf, grammar_eq]
    rfl
  have hsecond : outcomeOf ⟨some 6, false⟩ "(1)" = .error (.depthExceeded 6 "factor") := by
    rw [outcomeOf, grammar_eq]
    rfl
  have htree : Json.read "\x7b\"max_depth\":6\x7d".toList =
      some (.object [("max_depth".toList.map .char, .number ⟨false, [6], [], none⟩)]) := by cbv
  have hfile : fromFile .bundled Config.coding "calc.json"
      (filesOf "\x7b\"max_depth\":6\x7d" "calc.json") = .ok ⟨some 6, false⟩ := by
    simp only [fromFile, filesOf, Json.Library.bundled, Json.readBytes_toUTF8, Json.readText, htree]
    rfl
  obtain ⟨hread, -, hconfig, -, hrun⟩ :=
    run_in_order .bundled Config.coding (some "calc.json") ["1", "(1)", "2"]
      (filesOf "\x7b\"max_depth\":6\x7d")
  have hargs : Arguments.read ["--config", "calc.json", "1", "(1)", "2"] =
      .ok ⟨["1", "(1)", "2"], some "calc.json", false⟩ :=
    hread (List.cons_ne_nil _ _) (by decide) (by rintro _ ⟨⟩; decide)
  obtain ⟨-, -, hfails, -⟩ := hrun _ ((hconfig _ rfl).trans hfile)
  have hbefore : ∀ e ∈ ["1"], ∀ x, outcomeOf ⟨some 6, false⟩ e ≠ .error x := by
    rw [List.forall_mem_singleton, hfirst]
    intro x hx
    cases hx
  obtain ⟨lines, hlines, hout⟩ := hfails ["1"] "(1)" ["2"] _ rfl hbefore hsecond
  rw [hargs, Except.map, hout]
  obtain ⟨line, -, hline, ⟨⟩, rfl⟩ := List.forall₂_cons_left_iff.1 hlines
  cases hline with
  | integer h =>
    cases hfirst.symm.trans h
    rfl
  | undefined h hv =>
    cases hfirst.symm.trans h
    exact absurd rfl (hv 1)
  | noMatch h => cases hfirst.symm.trans h

end

end OrderedChoice.Calculator
