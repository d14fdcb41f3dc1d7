import OrderedChoice.Proofs.Calculator.Reading
import OrderedChoice.Proofs.Calls
import OrderedChoice.Proofs.Semantics.Inversion

/-!
# The calculator is correct

* `isInRange_of_isJustified`: no rule of the calculator asks for a value that there is not;
* `parse_correct`: for every text, a parse ends without an error; it ends in a mismatch if and only
  if the text has no derivation, and otherwise in the value of whatever derivation the text has.
-/

namespace OrderedChoice.Calculator

/-! ### Values that rules ask for -/

/-- How many values of its rule an action asks for. -/
def Action.arity : Action → Nat
  | pick i => i + 1
  | operation => 4
  | fold => 2
  | number => 2

/-- The values that an action asks for are there: those of its rule, and for a fold the operator
and the operand of each operation. -/
def Action.InRange (a : Action) (args : List Value) : Prop :=
  a.arity ≤ args.length ∧
    match a with
    | .fold => ∀ pair ∈ ((args.getD 1 .null).asList?).getD [],
        ∃ items, pair.asList? = some items ∧ 2 ≤ items.length
    | _ => True

theorem eq_of_isPartOf {h : Grammar Action} (hp : h.IsPartOf grammar) :
    h = grammar ∨ h = operators := by
  cases hp with
  | self => exact .inl rfl
  | ofImport hi hp =>
    rw [imports_grammar] at hi
    obtain rfl := List.mem_singleton.1 hi
    cases hp with
    | self => exact .inr rfl
    | ofImport hj _ => cases hj

/-- A rule has symbols enough for its action, and only chains are folded. -/
theorem symbols_of_action {h : Grammar Action} {e : Expression Action} {x : Rule Action}
    {a : Action} (hp : h.IsPartOf grammar) (he : e ∈ h.expressions) (hx : x ∈ e.rules)
    (ha : x.transform = some a) :
    a.arity ≤ x.symbols.length ∧ (a = .fold → h = grammar ∧ ∃ r, x.symbols = chainSymbols r) := by
  rcases eq_of_isPartOf hp with rfl | rfl
  · have hrule : ∀ xs b, x = rule xs b → b.arity ≤ xs.length →
        (b = .fold → ∃ r, xs = chainSymbols r) →
        a.arity ≤ x.symbols.length ∧
          (a = .fold → grammar = grammar ∧ ∃ r, x.symbols = chainSymbols r) := by
      rintro xs b rfl hlen hfold
      cases ha
      exact ⟨hlen, fun h => ⟨rfl, hfold h⟩⟩
    rw [expressions_grammar] at he
    simp only [allExpressions, List.mem_cons, List.not_mem_nil, or_false] at he
    rcases he with rfl | rfl | rfl | rfl | rfl | rfl | rfl | rfl
    · exact hrule _ _ (List.mem_singleton.1 hx) (by decide) nofun
    · exact hrule _ _ (List.mem_singleton.1 hx) (by decide) fun _ => ⟨.additive, rfl⟩
    · exact hrule _ _ (List.mem_singleton.1 hx) (by decide) nofun
    · exact hrule _ _ (List.mem_singleton.1 hx) (by decide) fun _ => ⟨.multiplicative, rfl⟩
    · exact hrule _ _ (List.mem_singleton.1 hx) (by decide) nofun
    · rcases List.mem_cons.1 hx with hx | hx
      · exact hrule _ _ hx (by decide) nofun
      · exact hrule _ _ (List.mem_singleton.1 hx) (by decide) nofun
    · exact hrule _ _ (List.mem_singleton.1 hx) (by decide) nofun
    · -- white space has a rule without an action
      obtain rfl := List.mem_singleton.1 hx
      cases ha
  · -- operators are matched without actions
    rw [expressions_operators] at he
    simp only [List.mem_cons, List.not_mem_nil, or_false] at he
    rcases he with rfl | rfl
    · obtain ⟨c, -, rfl⟩ := List.mem_map.1 hx
      cases ha
    · obtain ⟨c, -, rfl⟩ := List.mem_map.1 hx
      cases ha

/-- An operator with its operand has a value of two items. -/
theorem value_of_tail {text : List Char} {r : Rank} {p q : Position} {v : Value}
    (h : Reads text (tailExpression r) p (.ok v q)) : ∃ a b, v = .list [a, b] := by
  obtain ⟨x, hx, h⟩ := Matches.of_ok h
  obtain rfl := List.mem_singleton.1 hx
  obtain ⟨args, -, rfl⟩ := h.of_transform rfl
  exact ⟨_, _, rfl⟩

theorem isInRange_fold {text : List Char} {e : Expression Action} {r : Rank} {p q : Position}
    {args : List Value} (h : ReadsAll text e (chainSymbols r) p (.ok args q)) :
    Action.fold.InRange args := by
  -- the second value of a chain is the list of the values of its tails
  obtain ⟨u, us, m, rfl, -, h⟩ := Derives.of_symbols_cons h rfl
  obtain ⟨w, ws, m', rfl, hw, h⟩ := h.of_symbols_cons rfl
  refine ⟨by simp [Action.arity], ?_⟩
  obtain ⟨f', hf', hq⟩ := hw.of_reference rfl
  rw [resolve_tail] at hf'
  cases hf'
  obtain ⟨vs, rfl, hvs⟩ := Derives.of_zeroOrMore hq
  intro pair hpair
  obtain ⟨p', q', hpair'⟩ := hvs.of_repetition pair hpair
  obtain ⟨a, b, rfl⟩ := value_of_tail hpair'
  exact ⟨[a, b], rfl, Nat.le_refl _⟩

/-- No rule of the calculator asks for a value that there is not. -/
theorem isInRange_of_isJustified {text : List Char} {c : Call Action}
    (h : c.IsJustified (setting text) grammar) : c.transform.InRange c.args := by
  obtain ⟨harity, hfold⟩ :=
    symbols_of_action h.isPartOf h.expression_mem h.rule_mem h.transform_eq
  obtain ⟨depth, hd⟩ := h.derives
  have hlen := hd.length_eq
  cases hc : c.transform with
  | fold =>
    obtain ⟨hg, r, hr⟩ := hfold hc
    rw [hg, hr] at hd
    exact isInRange_fold hd
  | pick i => exact ⟨by rw [hlen, ← hc]; exact harity, trivial⟩
  | operation => exact ⟨by rw [hlen, ← hc]; exact harity, trivial⟩
  | number => exact ⟨by rw [hlen, ← hc]; exact harity, trivial⟩

/-! ### Whole texts -/

/-- A session of the calculator that asks for full matches, whatever it has parsed before. -/
def session (before : String) (m : Machine Action) : Session Action :=
  ⟨grammar, meaning, Config.default.withFullMatch true, before, m⟩

variable {before : String} {m : Machine Action} {text : List Char}

/-- A text with a derivation has its value. -/
theorem yields_derivation (d : Derivation) (hd : d.text = text) :
    (session before m).Yields text (.ok (some d.sum.value)) := by
  have hs : (Position.start text).Spans d.text ((Position.start text).advance d.text.length) :=
    Position.spans_of_prefix (by rw [hd]; exact List.prefix_rfl)
  generalize (Position.start text).advance d.text.length = q at hs
  have hend : q.rest = [] := by
    have hrest : text = d.text ++ q.rest := hs.1
    rw [hd] at hrest
    exact List.self_eq_append_right.1 hrest
  obtain ⟨p₁, hbefore, hs⟩ := hs.split
  obtain ⟨p₂, hsum, hafter⟩ := hs.split
  have hp₁ : NoHead blank.accepts p₁.rest := by
    rw [hsum.1]
    exact d.sum.noHead_blank p₂.rest
  have hp₂ : Ends (.chain .additive) p₂.rest := by
    rw [hafter.1, hend, List.append_nil]
    exact ends_blanks d.after
  have hq : NoHead blank.accepts q.rest := by
    rw [hend]
    exact noHead_nil _
  have hreads : Reads text (Nonterminal.chain .additive).expression p₁ (.ok d.sum.value p₂) :=
    d.sum.isRead.reads hsum hp₂
  exact .value root?_grammar (reads_root hbefore hp₁ hreads hafter hq) fun _ => hend

/-- A text without a derivation has no value. -/
theorem yields_none (hno : ¬ ∃ d : Derivation, d.text = text) :
    (session before m).Yields text (.ok none) := by
  rcases decided_root text with h | ⟨d, q, hs, h⟩
  · exact .mismatch root?_grammar h
  · refine .remainder root?_grammar h rfl fun hend => hno ⟨d, ?_⟩
    have hrest : text = d.text ++ q.rest := hs.1
    rw [hend, List.append_nil] at hrest
    exact hrest.symm

/-- **The calculator accepts its language and computes the value of each text in it.** -/
theorem parse_correct (before : String) (m : Machine Action) (input : String) :
    let report := ((session before m).parse input).1
    ((∀ x, report.outcome ≠ .error x) ∧ report.outcome ≠ .endless) ∧
    (report.outcome = .mismatch ↔ ¬ ∃ d : Derivation, d.text = input.toList) ∧
    (∀ d : Derivation, d.text = input.toList → report.outcome = .matched d.sum.value) ∧
    ∀ c ∈ callsOf report.log, c.transform.InRange c.args := by
  intro report
  have hvalue : ∀ d : Derivation, d.text = input.toList → report.outcome = .matched d.sum.value :=
    fun d hd => Session.outcome_eq_matched (yields_derivation d hd)
  have hcalls : ∀ c ∈ callsOf report.log, c.transform.InRange c.args :=
    fun c hc => isInRange_of_isJustified (isJustified_of_mem_callsOf (session before m) input hc)
  -- if there is a derivation, all derivations have the value that the parse has come to
  by_cases hd : ∃ d : Derivation, d.text = input.toList
  · obtain ⟨d, hd'⟩ := hd
    have ho := hvalue d hd'
    rw [ho]
    refine ⟨⟨nofun, nofun⟩, iff_of_false nofun fun hno => hno ⟨d, hd'⟩, ?_, hcalls⟩
    intro d' hd''
    rw [← ho]
    exact hvalue d' hd''
  · have ho : report.outcome = .mismatch := Session.outcome_eq_mismatch (yields_none hd)
    rw [ho]
    exact ⟨⟨nofun, nofun⟩, iff_of_true rfl hd, fun d hd' => absurd ⟨d, hd'⟩ hd, hcalls⟩

/-! ### An instance -/

/-- A number of one digit. -/
def small (negative : Bool) (c : Char) (h : digit.accepts c = true) : Tree .factor :=
  .number negative ⟨[c], List.cons_ne_nil c [], List.forall_mem_singleton.2 h⟩

/-- A derivation with a quotient of a negative number and a sum. -/
def quotient : Derivation :=
  let none : Blanks := ⟨[], nofun⟩
  let one : Blanks := ⟨[' '], List.forall_mem_singleton.2 rfl⟩
  let sum : Tree (.chain .additive) :=
    .operation (.operand (r := .additive) (.operand (r := .multiplicative) (small false '1' rfl)))
      none ⟨'+', by decide⟩ none (.operand (r := .multiplicative) (small false '2' rfl))
  ⟨none, .operand (r := .additive) (.operation (.operand (r := .multiplicative)
    (small true '6' rfl)) none ⟨'/', by decide⟩ one (.paren none sum none)), one⟩

theorem parse_correct_quotient :
    quotient.text = "-6/ (1+2) ".toList ∧
    ((session "" (.start [])).parse "-6/ (1+2) ").1.outcome = .matched (.integer (-2)) :=
  ⟨rfl, (parse_correct "" (.start []) "-6/ (1+2) ").2.2.1 quotient rfl⟩

end OrderedChoice.Calculator
