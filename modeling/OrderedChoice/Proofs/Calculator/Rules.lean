import OrderedChoice.Proofs.Calculator.Language
import OrderedChoice.Proofs.Semantics.Terminal

/-!
# The rules of the calculator

What each expression of the calculator comes to, given what the expressions in it come to.
`Reads text e p r` says that the expression `e` comes to the result `r` at the place `p`.  The two
ranks of operations have rules of the same form, and so have the lemmas about them.
-/

namespace OrderedChoice.Calculator

/-! ### Expressions -/

/-- The name of the expression for a nonterminal. -/
def Nonterminal.name : Nonterminal → String
  | factor => "factor"
  | chain .additive => "sum"
  | chain .multiplicative => "product"

/-- The name of the expression for an operator and its operand. -/
def Rank.tailName : Rank → String
  | additive => "sum_tail"
  | multiplicative => "product_tail"

/-- The name of the expression for an operator. -/
def Rank.operatorName : Rank → String
  | additive => "addop"
  | multiplicative => "mulop"

/-- A sum in parentheses. -/
def parenSymbols : List Symbol :=
  [.literal "(", .reference "ws", .reference "sum", .reference "ws", .literal ")"]

def factorExpression : Expression Action :=
  ⟨"factor", [rule parenSymbols (.pick 2), rule [.reference "number"] (.pick 0)]⟩

/-- An operand and all operations that follow it. -/
def chainSymbols (r : Rank) : List Symbol :=
  [.reference r.operand.name, (Symbol.reference r.tailName).quantified .zeroOrMore]

def chainExpression (r : Rank) : Expression Action :=
  ⟨(Nonterminal.chain r).name, [rule (chainSymbols r) .fold]⟩

def Nonterminal.expression : Nonterminal → Expression Action
  | factor => factorExpression
  | chain r => chainExpression r

def tailExpression (r : Rank) : Expression Action :=
  ⟨r.tailName, [rule [.reference "ws", .qualified "ops" r.operatorName, .reference "ws",
    .reference r.operand.name] .operation]⟩

def operatorExpression (r : Rank) : Expression Action :=
  ⟨r.operatorName, r.operators.map fun c => literalRule (String.ofList [c])⟩

def numberExpression : Expression Action :=
  ⟨"number", [rule [(Symbol.literal "-").withLookahead .lenient, patternSymbol digit .oneOrMore]
    .number]⟩

def blanksExpression : Expression Action := ⟨"ws", [⟨[patternSymbol blank .zeroOrMore], none⟩]⟩

def rootExpression : Expression Action :=
  ⟨"calc", [rule [.reference "ws", .reference "sum", .reference "ws"] (.pick 1)]⟩

/-- Where an expression of the calculator is matched; nesting is not limited. -/
def frame (e : Expression Action) : Frame Action := ⟨none, grammar, e⟩

/-- Where an operator is matched. -/
def operatorFrame (r : Rank) : Frame Action := ⟨none, operators, operatorExpression r⟩

section

set_option maxRecDepth 4000

/-- All expressions of the calculator, in their order. -/
def allExpressions : List (Expression Action) :=
  [rootExpression, chainExpression .additive, tailExpression .additive,
    chainExpression .multiplicative, tailExpression .multiplicative, factorExpression,
    numberExpression, blanksExpression]

/-- The tables of the calculator. -/
theorem grammar_eq : grammar =
    .ofMembers "calc" (some "calc") allExpressions [operators] := by
  rfl

theorem imports_grammar : grammar.imports = [operators] := by
  rw [grammar_eq]
  rfl

theorem expressions_grammar : grammar.expressions = allExpressions := by
  rw [grammar_eq]
  rfl

theorem expressions_operators : operators.expressions =
    [operatorExpression .additive, operatorExpression .multiplicative] := rfl

/-- The symbols for digits and for white space are what their sources are compiled to. -/
theorem pattern_digits : Symbol.pattern "\\d+" = .ok (patternSymbol digit .oneOrMore) := rfl

theorem pattern_blanks : Symbol.pattern "\\s*" = .ok (patternSymbol blank .zeroOrMore) := rfl

theorem root?_grammar : grammar.root? = some rootExpression := by
  rw [grammar_eq]
  rfl

theorem resolve_nonterminal (e : Expression Action) (n : Nonterminal) :
    (frame e).resolve ⟨none, n.name⟩ = .ok (frame n.expression) := by
  simp only [frame, grammar_eq]
  cases n with
  | factor => rfl
  | chain r => cases r <;> rfl

theorem resolve_tail (e : Expression Action) (r : Rank) :
    (frame e).resolve ⟨none, r.tailName⟩ = .ok (frame (tailExpression r)) := by
  simp only [frame, grammar_eq]
  cases r <;> rfl

theorem resolve_operator (e : Expression Action) (r : Rank) :
    (frame e).resolve ⟨some "ops", r.operatorName⟩ = .ok (operatorFrame r) := by
  simp only [frame, grammar_eq]
  cases r <;> rfl

theorem resolve_number (e : Expression Action) :
    (frame e).resolve ⟨none, "number"⟩ = .ok (frame numberExpression) := by
  simp only [frame, grammar_eq]
  rfl

theorem resolve_blanks (e : Expression Action) :
    (frame e).resolve ⟨none, "ws"⟩ = .ok (frame blanksExpression) := by
  simp only [frame, grammar_eq]
  rfl

end

/-! ### Symbols -/

/-- What stays the same in a parse of a text by the calculator. -/
def setting (text : List Char) : Setting Action := ⟨meaning, none, text⟩

/-- What an expression of the calculator comes to at a place of a text. -/
def Reads (text : List Char) (e : Expression Action) (p : Position) (r : Result Value) : Prop :=
  Matches (setting text) (frame e) p r

/-- What symbols of an expression come to at a place of a text. -/
def ReadsAll (text : List Char) (e : Expression Action) (xs : List Symbol) (p : Position)
    (r : Result (List Value)) : Prop :=
  Derives (setting text) (Matches (setting text)) (.symbols (frame e) xs p r)

/-- What a symbol of an expression comes to at a place of a text. -/
def ReadsOne (text : List Char) (e : Expression Action) (x : Symbol) (p : Position)
    (r : Result Value) : Prop :=
  Derives (setting text) (Matches (setting text)) (.symbol (frame e) x p r)

variable {text : List Char} {e e' : Expression Action} {p q q' : Position} {r : Result Value}
  {v : Value} {vs args : List Value} {a : Action} {xs : List Symbol}

/-- A rule whose symbols match computes its value. -/
theorem derives_rule (h : ReadsAll text e xs p (.ok args q)) :
    Derives (setting text) (Matches (setting text))
      (.rule (frame e) (rule xs a) p (.ok (compute a args) q)) :=
  .transformed (x := rule xs a) rfl h

/-- An expression whose first rule matches. -/
theorem reads_rule {name : String} {rest : List (Rule Action)} (args : List Value)
    (h : ReadsAll text ⟨name, rule xs a :: rest⟩ xs p (.ok args q)) :
    Reads text ⟨name, rule xs a :: rest⟩ p (.ok (compute a args) q) :=
  .inside nofun (.chosen (derives_rule h) nofun)

/-- An expression whose only rule does not match. -/
theorem reads_no_rule {name : String} (h : ReadsAll text ⟨name, [rule xs a]⟩ xs p .fail) :
    Reads text ⟨name, [rule xs a]⟩ p .fail :=
  .inside nofun (.next (.ruleFails h) .noRule)

theorem readsOne_reference {name : String} (hr : (frame e).resolve ⟨none, name⟩ = .ok (frame e'))
    (h : Reads text e' p r) : ReadsOne text e (.reference name) p r :=
  .reference rfl hr (.one h)

section

variable {f : Frame Action} {R : Semantics Action} {t : String} {c : Char}

theorem derives_literal (ht : t.toList = [c]) (h : p.Spans [c] q) :
    Derives (setting text) R (.symbol f (.literal t) p (.ok (.ofChars [c]) q)) := by
  refine .literal rfl ?_
  rw [ht]
  exact .single rfl (.literal [c]) h

theorem derives_no_literal (ht : t.toList = [c]) (h : NoHead (· == c) p.rest) :
    Derives (setting text) R (.symbol f (.literal t) p .fail) := by
  refine .literal rfl ?_
  rw [ht]
  exact Terminal.takes_no_char h

end

/-! ### White space -/

theorem reads_blanks (b : Blanks) (h : p.Spans b.chars q) (hq : NoHead blank.accepts q.rest) :
    Reads text blanksExpression p (.ok (.ofChars b.chars) q) := by
  have htakes := Terminal.takes_run (q := .zeroOrMore) rfl h b.accepted hq (.inr rfl)
  have hone : ReadsOne text blanksExpression (patternSymbol blank .zeroOrMore) p
      (.ok (.ofChars b.chars) q) := .pattern rfl htakes
  exact .inside nofun (.chosen (.plain rfl (.then_ok rfl hone .done) h) nofun)

theorem readsOne_blanks (b : Blanks) (h : p.Spans b.chars q) (hq : NoHead blank.accepts q.rest) :
    ReadsOne text e (.reference "ws") p (.ok (.ofChars b.chars) q) :=
  readsOne_reference (resolve_blanks e) (reads_blanks b h hq)

/-- At every place there is white space, if only the empty text. -/
theorem exists_blanks (p : Position) :
    ∃ (b : Blanks) (q : Position), p.Spans b.chars q ∧ NoHead blank.accepts q.rest := by
  obtain ⟨cs, q, hs, hcs, hq⟩ := p.exists_run blank.accepts
  exact ⟨⟨cs, hcs⟩, q, hs, hq⟩

/-! ### Operators -/

/-- A choice between characters takes the one that the text begins with. -/
theorem derives_oneOf {f : Frame Action} {R : Semantics Action} {c : Char} {cs : List Char}
    (hc : c ∈ cs) (h : p.Spans [c] q) :
    Derives (setting text) R
      (.rules f (cs.map fun d => literalRule (String.ofList [d])) p (.ok (.ofChars [c]) q)) := by
  induction cs with
  | nil => cases hc
  | cons d cs ih =>
    by_cases hd : c = d
    · subst hd
      have hone : Derives (setting text) R
          (.symbol f (.literal (String.ofList [c])) p (.ok (.ofChars [c]) q)) :=
        derives_literal String.toList_ofList h
      exact .chosen (.plain rfl (.then_ok rfl hone .done) h) nofun
    · have hhead : NoHead (· == d) p.rest := by
        rw [h.1]
        exact noHead_cons.2 (beq_eq_false_iff_ne.2 hd)
      have hone : Derives (setting text) R (.symbol f (.literal (String.ofList [d])) p .fail) :=
        derives_no_literal String.toList_ofList hhead
      exact .next (.ruleFails (.fail_first rfl hone))
        (ih ((List.mem_cons.1 hc).resolve_left hd))

theorem derives_noneOf {f : Frame Action} {R : Semantics Action} {cs : List Char}
    (h : NoHead (fun c => cs.contains c) p.rest) :
    Derives (setting text) R
      (.rules f (cs.map fun d => literalRule (String.ofList [d])) p .fail) := by
  induction cs with
  | nil => exact .noRule
  | cons d cs ih =>
    have hall : ∀ c, p.rest.head? = some c → (c == d) = false ∧ cs.contains c = false := by
      intro c hc
      simpa only [List.contains_cons, Bool.or_eq_false_iff] using h c hc
    have hone : Derives (setting text) R (.symbol f (.literal (String.ofList [d])) p .fail) :=
      derives_no_literal String.toList_ofList fun c hc => (hall c hc).1
    exact .next (.ruleFails (.fail_first rfl hone)) (ih fun c hc => (hall c hc).2)

theorem readsOne_operator {k : Rank} (op : Operator k) (h : p.Spans [op.char] q) :
    ReadsOne text e (.qualified "ops" k.operatorName) p (.ok (.ofChars [op.char]) q) :=
  .reference rfl (resolve_operator e k) (.one (.inside nofun (derives_oneOf op.mem h)))

theorem readsOne_no_operator {k : Rank} (h : NoHead (fun c => k.operators.contains c) p.rest) :
    ReadsOne text e (.qualified "ops" k.operatorName) p .fail :=
  .reference rfl (resolve_operator e k) (.one (.inside nofun (derives_noneOf h)))

/-! ### An operator with its operand -/

section

variable {k : Rank} {b c : Blanks} {p₁ p₂ p₃ : Position} (hb : p.Spans b.chars p₁)
  (hb' : NoHead blank.accepts p₁.rest)
include hb hb'

theorem reads_tail (op : Operator k) (hop : p₁.Spans [op.char] p₂) (hc : p₂.Spans c.chars p₃)
    (hc' : NoHead blank.accepts p₃.rest) (h : Reads text k.operand.expression p₃ (.ok v q)) :
    Reads text (tailExpression k) p (.ok (.list [.ofChars [op.char], v]) q) := by
  refine reads_rule [.ofChars b.chars, .ofChars [op.char], .ofChars c.chars, v] ?_
  refine .then_ok rfl (readsOne_blanks b hb hb') ?_
  refine .then_ok rfl (readsOne_operator op hop) ?_
  refine .then_ok rfl (readsOne_blanks c hc hc') ?_
  exact .then_ok rfl (readsOne_reference (resolve_nonterminal _ _) h) .done

theorem reads_no_tail_of_operand (op : Operator k) (hop : p₁.Spans [op.char] p₂)
    (hc : p₂.Spans c.chars p₃) (hc' : NoHead blank.accepts p₃.rest)
    (h : Reads text k.operand.expression p₃ .fail) : Reads text (tailExpression k) p .fail := by
  refine reads_no_rule ?_
  refine .then_fail rfl (readsOne_blanks b hb hb') ?_
  refine .then_fail rfl (readsOne_operator op hop) ?_
  refine .then_fail rfl (readsOne_blanks c hc hc') ?_
  exact .fail_first rfl (readsOne_reference (resolve_nonterminal _ _) h)

theorem reads_no_tail_of_operator (h : NoHead (fun c => k.operators.contains c) p₁.rest) :
    Reads text (tailExpression k) p .fail :=
  reads_no_rule (.then_fail rfl (readsOne_blanks b hb hb')
    (.fail_first rfl (readsOne_no_operator h)))

end

/-! ### Chains of operations -/

/-- What an operator with its operand, again and again, comes to. -/
def ReadsTails (text : List Char) (k : Rank) (p : Position) (r : Result (List Value)) : Prop :=
  Derives (setting text) (Matches (setting text)) (.repetition (frame (tailExpression k)) p r)

theorem reads_chain {k : Rank} (h : Reads text k.operand.expression p (.ok v q))
    (h' : ReadsTails text k q (.ok vs q')) :
    Reads text (Nonterminal.chain k).expression p (.ok (compute .fold [v, .list vs]) q') := by
  refine reads_rule [v, .list vs] ?_
  refine .then_ok rfl (readsOne_reference (resolve_nonterminal _ _) h) ?_
  exact .then_ok rfl (.reference rfl (resolve_tail _ k) (.zeroOrMore h')) .done

theorem reads_no_chain {k : Rank} (h : Reads text k.operand.expression p .fail) :
    Reads text (Nonterminal.chain k).expression p .fail :=
  reads_no_rule (.fail_first rfl (readsOne_reference (resolve_nonterminal _ _) h))

/-! ### Factors -/

section

variable {b c : Blanks} {p₁ p₂ p₃ p₄ : Position} (hp : p.Spans ['('] p₁)
  (hb : p₁.Spans b.chars p₂) (hb' : NoHead blank.accepts p₂.rest)
include hp hb hb'

theorem reads_paren (h : Reads text (Nonterminal.chain .additive).expression p₂ (.ok v p₃))
    (hc : p₃.Spans c.chars p₄) (hc' : NoHead blank.accepts p₄.rest) (hq : p₄.Spans [')'] q) :
    Reads text Nonterminal.factor.expression p (.ok v q) := by
  refine reads_rule [.ofChars ['('], .ofChars b.chars, v, .ofChars c.chars, .ofChars [')']] ?_
  refine .then_ok rfl (derives_literal rfl hp) ?_
  refine .then_ok rfl (readsOne_blanks b hb hb') ?_
  refine .then_ok rfl (readsOne_reference (resolve_nonterminal _ (.chain .additive)) h) ?_
  refine .then_ok rfl (readsOne_blanks c hc hc') ?_
  exact .then_ok rfl (derives_literal rfl hq) .done

theorem no_paren_of_sum (h : Reads text (Nonterminal.chain .additive).expression p₂ .fail) :
    ReadsAll text factorExpression parenSymbols p .fail := by
  refine .then_fail rfl (derives_literal rfl hp) ?_
  refine .then_fail rfl (readsOne_blanks b hb hb') ?_
  exact .fail_first rfl (readsOne_reference (resolve_nonterminal _ (.chain .additive)) h)

theorem no_paren_of_close (h : Reads text (Nonterminal.chain .additive).expression p₂ (.ok v p₃))
    (hc : p₃.Spans c.chars p₄) (hc' : NoHead blank.accepts p₄.rest)
    (hq : NoHead (· == ')') p₄.rest) : ReadsAll text factorExpression parenSymbols p .fail := by
  refine .then_fail rfl (derives_literal rfl hp) ?_
  refine .then_fail rfl (readsOne_blanks b hb hb') ?_
  refine .then_fail rfl (readsOne_reference (resolve_nonterminal _ (.chain .additive)) h) ?_
  refine .then_fail rfl (readsOne_blanks c hc hc') ?_
  exact .fail_first rfl (derives_no_literal rfl hq)

end

theorem no_paren_of_open (h : NoHead (· == '(') p.rest) :
    ReadsAll text factorExpression parenSymbols p .fail :=
  .fail_first rfl (derives_no_literal rfl h)

/-- Without parentheses, a factor is a number. -/
theorem reads_factor_number (hno : ReadsAll text factorExpression parenSymbols p .fail)
    (h : Reads text numberExpression p (.ok v q)) :
    Reads text Nonterminal.factor.expression p (.ok v q) := by
  have hrule : ReadsAll text factorExpression [.reference "number"] p (.ok [v] q) :=
    .then_ok rfl (readsOne_reference (resolve_number _) h) .done
  exact .inside nofun (.next (.ruleFails hno) (.chosen (derives_rule (a := .pick 0) hrule) nofun))

theorem reads_no_factor (hno : ReadsAll text factorExpression parenSymbols p .fail)
    (h : Reads text numberExpression p .fail) :
    Reads text Nonterminal.factor.expression p .fail := by
  have hrule : ReadsAll text factorExpression [.reference "number"] p .fail :=
    .fail_first rfl (readsOne_reference (resolve_number _) h)
  exact .inside nofun (.next (.ruleFails hno) (.next (.ruleFails hrule) .noRule))

/-! ### Numbers -/

/-- The value of the sign of a number. -/
def signValue (negative : Bool) : Value := if negative then .ofChars ['-'] else .null

/-- A sign, if there is one, before whatever comes to the rest of a number. -/
theorem reads_sign {negative : Bool} (h : p.Spans (signText negative) q)
    (hno : negative = false → NoHead (· == '-') p.rest) {res : Result (List Value)}
    (h' : ReadsAll text e xs q res) :
    ReadsAll text e ((Symbol.literal "-").withLookahead .lenient :: xs) p
      (res.map (signValue negative :: ·)) := by
  cases negative with
  | true =>
    have hone : ReadsOne text e ((Symbol.literal "-").withLookahead .lenient) p
        (.ok (.ofChars ['-']) q) := .literal rfl (.single rfl (.literal ['-']) h)
    exact .kept nofun hone h'
  | false =>
    obtain rfl := h.right_unique (.refl p)
    have hone : ReadsOne text e ((Symbol.literal "-").withLookahead .lenient) q .fail :=
      .literal rfl (Terminal.takes_no_char (hno rfl))
    exact .passedOver rfl hone h'

theorem reads_number {negative : Bool} (digits : Digits)
    (h : p.Spans (signText negative) q) (hno : negative = false → NoHead (· == '-') p.rest)
    (hd : q.Spans digits.chars q') (hq : NoHead digit.accepts q'.rest) :
    Reads text numberExpression p
      (.ok (compute .number [signValue negative, .ofChars digits.chars]) q') := by
  have hone : ReadsOne text numberExpression (patternSymbol digit .oneOrMore) q
      (.ok (.ofChars digits.chars) q') :=
    .pattern rfl (Terminal.takes_run rfl hd digits.accepted hq (.inl digits.ne_nil))
  exact reads_rule _ (reads_sign h hno (.then_ok rfl hone .done))

theorem reads_no_number {negative : Bool} (h : p.Spans (signText negative) q)
    (hno : negative = false → NoHead (· == '-') p.rest) (hq : NoHead digit.accepts q.rest) :
    Reads text numberExpression p .fail := by
  have hone : ReadsOne text numberExpression (patternSymbol digit .oneOrMore) q .fail :=
    .pattern rfl (Terminal.takes_no_run rfl hq)
  exact reads_no_rule (reads_sign h hno (.fail_first rfl hone))

/-! ### The whole text -/

section

variable {b c : Blanks} {p₁ p₂ : Position} (hb : p.Spans b.chars p₁)
  (hb' : NoHead blank.accepts p₁.rest)
include hb hb'

theorem reads_root (h : Reads text (Nonterminal.chain .additive).expression p₁ (.ok v p₂))
    (hc : p₂.Spans c.chars q) (hc' : NoHead blank.accepts q.rest) :
    Reads text rootExpression p (.ok v q) := by
  refine reads_rule [.ofChars b.chars, v, .ofChars c.chars] ?_
  refine .then_ok rfl (readsOne_blanks b hb hb') ?_
  refine .then_ok rfl (readsOne_reference (resolve_nonterminal _ (.chain .additive)) h) ?_
  exact .then_ok rfl (readsOne_blanks c hc hc') .done

theorem reads_no_root (h : Reads text (Nonterminal.chain .additive).expression p₁ .fail) :
    Reads text rootExpression p .fail := by
  refine reads_no_rule (.then_fail rfl (readsOne_blanks b hb hb') ?_)
  exact .fail_first rfl (readsOne_reference (resolve_nonterminal _ (.chain .additive)) h)

end

end OrderedChoice.Calculator
