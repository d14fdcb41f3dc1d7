import OrderedChoice.Grammar.Pattern

/-!
# Symbols

A `Symbol` is one unit of a rule.  Its kind says what is matched: a literal text, one character
of a pattern, or another expression.  Its quantifier says how often, and its lookahead whether
the match is kept.

* `Symbol.display` is the short form with marks, `Symbol.inspect` the form with all fields;
* `Symbol.pattern` builds a pattern symbol from a class with a quantifier mark at its end.
-/

namespace OrderedChoice

/-- How often a symbol is matched. -/
inductive Quantifier where
  | one
  | zeroOrMore
  | oneOrMore
  | optional
  deriving DecidableEq, Repr

namespace Quantifier

/-- The mark behind a symbol. -/
def mark : Quantifier → String
  | one => ""
  | zeroOrMore => "*"
  | oneOrMore => "+"
  | optional => "?"

/-- The quantifier with a mark. -/
def ofMark? : String → Option Quantifier
  | "" => some one
  | "*" => some zeroOrMore
  | "+" => some oneOrMore
  | "?" => some optional
  | _ => none

theorem ofMark?_mark (q : Quantifier) : ofMark? q.mark = some q := by
  cases q <;> rfl

/-- The name of a quantifier. -/
def name : Quantifier → String
  | one => "One"
  | zeroOrMore => "ZeroOrMore"
  | oneOrMore => "OneOrMore"
  | optional => "Optional"

/-- Whether a symbol may be matched more than once. -/
def isRepeating : Quantifier → Bool
  | zeroOrMore | oneOrMore => true
  | one | optional => false

/-- Whether a symbol may be absent. -/
def allowsNone : Quantifier → Bool
  | zeroOrMore | optional => true
  | one | oneOrMore => false

end Quantifier

/-- Whether the match of a symbol is kept. -/
inductive Lookahead where
  /-- The match is kept, and a mismatch fails the rule. -/
  | consume
  /-- The symbol must match, but what it matched is given back. -/
  | assert
  /-- A match is kept, and a mismatch is passed over. -/
  | lenient
  deriving DecidableEq, Repr

namespace Lookahead

/-- The mark before a symbol. -/
def mark : Lookahead → String
  | consume => ""
  | assert => "!"
  | lenient => "&"

/-- The lookahead with a mark. -/
def ofMark? : String → Option Lookahead
  | "" => some consume
  | "!" => some assert
  | "&" => some lenient
  | _ => none

theorem ofMark?_mark (l : Lookahead) : ofMark? l.mark = some l := by
  cases l <;> rfl

/-- The name of a lookahead. -/
def name : Lookahead → String
  | consume => "Consume"
  | assert => "Assert"
  | lenient => "Lenient"

end Lookahead

/-- The name of an expression, and of the grammar it is imported from if it is. -/
structure Reference where
  grammar : Option String
  expression : String
  deriving DecidableEq, Repr

namespace Reference

/-- The names, each after a colon. -/
def display (r : Reference) : String :=
  match r.grammar with
  | some g => ":" ++ g ++ ":" ++ r.expression
  | none => ":" ++ r.expression

/-- The reference with its fields. -/
def inspect (r : Reference) : String :=
  inspectFields "Reference"
    [("grammar", inspectOption (r.grammar.map quoted)), ("expression", quoted r.expression)]

end Reference

/-- What a symbol matches. -/
inductive SymbolKind where
  | literal (text : String)
  | pattern (p : Pattern)
  | reference (r : Reference)
  deriving DecidableEq

namespace SymbolKind

/-- A literal in quotes, a pattern between slashes, a reference with colons. -/
def display : SymbolKind → String
  | literal text => quoted text
  | pattern p => "/" ++ p.source ++ "/"
  | reference r => r.display

/-- The kind with its fields. -/
def inspect : SymbolKind → String
  | literal text => "Literal(" ++ quoted text ++ ")"
  | pattern p => "Pattern(" ++ p.inspect ++ ")"
  | reference r => "Reference(" ++ r.inspect ++ ")"

end SymbolKind

/-- One unit of a rule. -/
structure Symbol where
  kind : SymbolKind
  quantifier : Quantifier
  lookahead : Lookahead
  deriving DecidableEq

namespace Symbol

/-- A symbol that is matched once and kept. -/
def ofKind (k : SymbolKind) : Symbol := ⟨k, .one, .consume⟩

/-- A literal text. -/
def literal (text : String) : Symbol := ofKind (.literal text)

/-- A reference to an expression of the active grammar. -/
def reference (expression : String) : Symbol := ofKind (.reference ⟨none, expression⟩)

/-- A reference to an expression of an imported grammar. -/
def qualified (grammar expression : String) : Symbol :=
  ofKind (.reference ⟨some grammar, expression⟩)

/-- The symbol with another quantifier. -/
def quantified (s : Symbol) (q : Quantifier) : Symbol := { s with quantifier := q }

/-- The symbol with another lookahead. -/
def withLookahead (s : Symbol) (l : Lookahead) : Symbol := { s with lookahead := l }

/-- The reference, if the symbol is one. -/
def asReference? (s : Symbol) : Option Reference :=
  match s.kind with
  | .reference r => some r
  | _ => none

/-- The symbol with its marks. -/
def display (s : Symbol) : String := s.lookahead.mark ++ s.kind.display ++ s.quantifier.mark

/-- The symbol with its fields. -/
def inspect (s : Symbol) : String :=
  inspectFields "Symbol" [("kind", s.kind.inspect),
    ("quantifier", s.quantifier.name), ("lookahead", s.lookahead.name)]

/-! ### Patterns -/

/-- Whether a text ends in an even number of backslashes. -/
def endsUnescaped (cs : List Char) : Bool := (cs.reverse.takeWhile (· == '\\')).length % 2 == 0

/-- Takes a quantifier mark off the end of a pattern, unless it is escaped or all there is. -/
def splitQuantifier (source : List Char) : List Char × Quantifier :=
  match splitLast source with
  | none => (source, .one)
  | some (body, last) =>
    if body.isEmpty || !endsUnescaped body then (source, .one)
    else match last with
      | '*' => (body, .zeroOrMore)
      | '+' => (body, .oneOrMore)
      | '?' => (body, .optional)
      | _ => (source, .one)

/-- Splitting loses nothing. -/
theorem splitQuantifier_append (source : List Char) :
    (splitQuantifier source).1 ++ (splitQuantifier source).2.mark.toList = source := by
  unfold splitQuantifier
  split
  · simp [Quantifier.mark]
  · rename_i body last h
    rw [eq_of_splitLast h]
    split
    · simp [Quantifier.mark]
    · split <;> simp [Quantifier.mark]

/-- A pattern symbol from a class and a quantifier mark at its end. -/
def pattern (source : String) : Except GrammarError Symbol :=
  let (body, q) := splitQuantifier source.toList
  match Pattern.compile (String.ofList body) with
  | .ok p => .ok ((ofKind (.pattern p)).quantified q)
  | .error e => .error e

end Symbol

end OrderedChoice
