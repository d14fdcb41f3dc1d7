import OrderedChoice.Calculator.Grammar
import OrderedChoice.Proofs.Span

/-!
# The language of the calculator

The texts that the calculator is to accept and their values, said without its grammar of rules.
White space may stand around operators and inside parentheses:

* a factor is a number, or a sum in parentheses;
* a product is a factor, or a product with `*` or `/` and one more factor;
* a sum is a product, or a sum with `+` or `-` and one more product.

`Tree n` is the type of derivations of the nonterminal `n`.  `Tree.text` is what is derived and
`Tree.value?` its value, which is missing as soon as a number or the result of an operation anywhere
in the tree does not fit into 64 bits, or something is divided by zero.

* `Ends n cs` says that a text of `n` before the text `cs` ends there and does not go on.
-/

namespace OrderedChoice.Calculator

/-! ### Derivations -/

/-- Operations come in two ranks. -/
inductive Rank where
  | additive
  | multiplicative
  deriving DecidableEq

/-- The operators of a rank. -/
def Rank.operators : Rank → List Char
  | additive => ['+', '-']
  | multiplicative => ['*', '/']

/-- What texts are derived from; a chain of additive operations is a sum, one of multiplicative
operations a product. -/
inductive Nonterminal where
  | factor
  | chain (r : Rank)

/-- What the operations of a rank are applied to. -/
def Rank.operand : Rank → Nonterminal
  | additive => .chain .multiplicative
  | multiplicative => .factor

/-- A text of white space. -/
structure Blanks where
  chars : List Char
  accepted : ∀ c ∈ chars, blank.accepts c = true

/-- A text of digits. -/
structure Digits where
  chars : List Char
  ne_nil : chars ≠ []
  accepted : ∀ c ∈ chars, digit.accepts c = true

/-- An operator of a rank. -/
structure Operator (r : Rank) where
  char : Char
  mem : char ∈ r.operators

/-- A derivation of a text from a nonterminal.  The first operand of an operation is the chain to
its left. -/
inductive Tree : Nonterminal → Type where
  | number (negative : Bool) (digits : Digits) : Tree .factor
  | paren (before : Blanks) (sum : Tree (.chain .additive)) (after : Blanks) : Tree .factor
  | operand {r : Rank} (t : Tree r.operand) : Tree (.chain r)
  | operation {r : Rank} (left : Tree (.chain r)) (before : Blanks) (op : Operator r)
      (after : Blanks) (right : Tree r.operand) : Tree (.chain r)

/-- The sign of a number. -/
def signText (negative : Bool) : List Char := if negative then ['-'] else []

/-- The text that is derived. -/
def Tree.text : {n : Nonterminal} → Tree n → List Char
  | _, number negative digits => signText negative ++ digits.chars
  | _, paren before sum after => '(' :: (before.chars ++ (sum.text ++ (after.chars ++ [')'])))
  | _, operand t => t.text
  | _, operation left before op after right =>
    left.text ++ (before.chars ++ (op.char :: (after.chars ++ right.text)))

/-! ### Values -/

/-- The number fits into 64 bits. -/
def Fits (n : Int) : Prop := Int64.minValue.toInt ≤ n ∧ n ≤ Int64.maxValue.toInt

instance (n : Int) : Decidable (Fits n) := inferInstanceAs (Decidable (_ ∧ _))

/-- A number, if it fits into 64 bits. -/
def checked (n : Int) : Option Int := if Fits n then some n else none

/-- The result of an operation; a quotient is rounded toward zero. -/
def operation? (op : Char) (a b : Int) : Option Int :=
  match op with
  | '+' => checked (a + b)
  | '-' => checked (a - b)
  | '*' => checked (a * b)
  | '/' => if b = 0 then none else checked (a.tdiv b)
  | _ => none

/-- The value of digits without a sign. -/
def Digits.magnitude? (digits : Digits) : Option Int :=
  (readNat? digits.chars).bind fun n => checked n

/-- The value of a tree, if all numbers in it and all results of its operations have one. -/
def Tree.value? : {n : Nonterminal} → Tree n → Option Int
  | _, number negative digits => digits.magnitude?.map fun n => if negative then -n else n
  | _, paren _ sum _ => sum.value?
  | _, operand t => t.value?
  | _, operation left _ op _ right =>
    left.value?.bind fun a => right.value?.bind fun b => operation? op.char a b

/-- A number as the value of a parse. -/
def toValue : Option Int → Value
  | some i => .integer (Int64.ofInt i)
  | none => .null

/-- The value of a tree as the value of a parse. -/
def Tree.value {n : Nonterminal} (t : Tree n) : Value := toValue t.value?

/-- A derivation of a whole text, a sum between white space. -/
structure Derivation where
  before : Blanks
  sum : Tree (.chain .additive)
  after : Blanks

/-- The text that is derived. -/
def Derivation.text (d : Derivation) : List Char :=
  d.before.chars ++ (d.sum.text ++ d.after.chars)

theorem fits_iff {n : Int} : Fits n ↔ -9223372036854775808 ≤ n ∧ n ≤ 9223372036854775807 :=
  Iff.rfl

theorem checked_eq_some {m n : Int} (h : checked m = some n) : m = n ∧ Fits n := by
  unfold checked at h
  split at h
  · rename_i hm
    cases h
    exact ⟨rfl, hm⟩
  · cases h

theorem fits_of_operation? {op : Char} {a b n : Int} (h : operation? op a b = some n) :
    Fits n := by
  unfold operation? at h
  split at h
  · exact (checked_eq_some h).2
  · exact (checked_eq_some h).2
  · exact (checked_eq_some h).2
  · split at h
    · cases h
    · exact (checked_eq_some h).2
  · cases h

/-- The value of a tree fits into 64 bits. -/
theorem Tree.fits_of_value? {n : Nonterminal} {t : Tree n} {i : Int} (h : t.value? = some i) :
    Fits i := by
  induction t generalizing i with
  | number negative digits =>
    obtain ⟨m, hm, rfl⟩ := Option.map_eq_some_iff.1 h
    obtain ⟨k, -, hk⟩ := Option.bind_eq_some_iff.1 hm
    obtain ⟨rfl, hfits⟩ := checked_eq_some hk
    cases negative with
    | true =>
      -- digits stand for no negative number, and the negative of any other that fits does so too
      rw [fits_iff] at hfits ⊢
      simp only [↓reduceIte]
      omega
    | false => exact hfits
  | paren _ _ _ ih => exact ih h
  | operand _ ih => exact ih h
  | operation left _ op _ right _ _ =>
    obtain ⟨a, -, ha⟩ := Option.bind_eq_some_iff.1 h
    obtain ⟨b, -, hb⟩ := Option.bind_eq_some_iff.1 ha
    exact fits_of_operation? hb

/-! ### Characters -/

theorem accepts_digit (c : Char) :
    digit.accepts c = Unicode.inRuns Unicode.decimalNumberRuns c.toNat := by
  refine (Regex.oneOf_isFoundIn _ c).trans ?_
  exact Bool.or_false _

theorem accepts_blank (c : Char) :
    blank.accepts c = Unicode.inRuns Unicode.whiteSpaceRuns c.toNat :=
  Regex.oneOf_isFoundIn _ c

theorem not_digit_of_blank {c : Char} (h : blank.accepts c = true) : digit.accepts c = false := by
  rw [accepts_blank] at h
  rw [accepts_digit]
  exact Unicode.not_inRuns_of_apart (by decide) h

theorem not_blank_of_digit {c : Char} (h : digit.accepts c = true) : blank.accepts c = false := by
  refine Bool.eq_false_iff.2 fun hb => ?_
  rw [not_digit_of_blank hb] at h
  cases h

/-- Parentheses and operators are neither blanks nor digits. -/
theorem accepts_mark {c : Char} (h : c ∈ ['(', ')', '+', '-', '*', '/']) :
    blank.accepts c = false ∧ digit.accepts c = false := by
  rw [accepts_blank, accepts_digit]
  simp only [List.mem_cons, List.not_mem_nil, or_false] at h
  rcases h with rfl | rfl | rfl | rfl | rfl | rfl <;> decide

theorem accepts_operator {r : Rank} {c : Char} (h : c ∈ r.operators) :
    blank.accepts c = false ∧ digit.accepts c = false := by
  refine accepts_mark ?_
  cases r with
  | additive => exact List.mem_of_mem_drop (i := 2) (List.mem_of_mem_take (i := 2) h)
  | multiplicative => exact List.mem_of_mem_drop (i := 4) h

theorem not_multiplicative_of_additive {c : Char} (h : c ∈ Rank.additive.operators) :
    Rank.multiplicative.operators.contains c = false := by
  simp only [Rank.operators, List.mem_cons, List.not_mem_nil, or_false] at h
  rcases h with rfl | rfl <;> rfl

/-! ### Where a text ends -/

/-- No operator of a rank is the first of a text but for white space. -/
def NoOperator (r : Rank) (cs : List Char) : Prop :=
  NoHead (fun c => r.operators.contains c) (cs.dropWhile blank.accepts)

/-- A text of a nonterminal before the text `cs` cannot be continued into `cs`. -/
def Ends : Nonterminal → List Char → Prop
  | .factor, cs => NoHead digit.accepts cs
  | .chain .multiplicative, cs => NoHead digit.accepts cs ∧ NoOperator .multiplicative cs
  | .chain .additive, cs =>
    (NoHead digit.accepts cs ∧ NoOperator .multiplicative cs) ∧ NoOperator .additive cs

theorem ends_chain (r : Rank) (cs : List Char) :
    Ends (.chain r) cs ↔ Ends r.operand cs ∧ NoOperator r cs := by
  cases r <;> exact Iff.rfl

theorem dropWhile_blanks (b : Blanks) {cs : List Char} (h : NoHead blank.accepts cs) :
    (b.chars ++ cs).dropWhile blank.accepts = cs := by
  rw [List.dropWhile_append_of_pos b.accepted]
  cases cs with
  | nil => rfl
  | cons c cs =>
    exact List.dropWhile_cons_of_neg (by rw [noHead_cons.1 h]; exact Bool.false_ne_true)

theorem noHead_digit_blanks (b : Blanks) {cs : List Char} (h : NoHead digit.accepts cs) :
    NoHead digit.accepts (b.chars ++ cs) := by
  cases hb : b.chars with
  | nil => exact h
  | cons c bs => exact noHead_cons.2 (not_digit_of_blank (b.accepted c (by rw [hb]; simp)))

/-- Behind a sum there may be white space up to a closing parenthesis. -/
theorem ends_closing (b : Blanks) (cs : List Char) :
    Ends (.chain .additive) (b.chars ++ ')' :: cs) := by
  obtain ⟨hblank, hdigit⟩ := accepts_mark (c := ')') (by decide)
  have hdrop : (b.chars ++ ')' :: cs).dropWhile blank.accepts = ')' :: cs :=
    dropWhile_blanks b (noHead_cons.2 hblank)
  refine ⟨⟨noHead_digit_blanks b (noHead_cons.2 hdigit), ?_⟩, ?_⟩
  · rw [NoOperator, hdrop]
    exact noHead_cons.2 (by decide)
  · rw [NoOperator, hdrop]
    exact noHead_cons.2 (by decide)

/-- Behind a sum there may be white space up to the end. -/
theorem ends_blanks (b : Blanks) : Ends (.chain .additive) b.chars := by
  have hdrop := dropWhile_blanks b (noHead_nil blank.accepts)
  have hdigit := noHead_digit_blanks b (noHead_nil digit.accepts)
  rw [List.append_nil] at hdrop hdigit
  refine ⟨⟨hdigit, ?_⟩, ?_⟩
  · rw [NoOperator, hdrop]
    exact noHead_nil _
  · rw [NoOperator, hdrop]
    exact noHead_nil _

/-- Behind an operand there may be white space up to an operator. -/
theorem ends_operator {r : Rank} (b : Blanks) (op : Operator r) (cs : List Char) :
    Ends r.operand (b.chars ++ op.char :: cs) := by
  obtain ⟨hblank, hdigit⟩ := accepts_operator op.mem
  have hd : NoHead digit.accepts (b.chars ++ op.char :: cs) :=
    noHead_digit_blanks b (noHead_cons.2 hdigit)
  cases r with
  | additive =>
    have hdrop : (b.chars ++ op.char :: cs).dropWhile blank.accepts = op.char :: cs :=
      dropWhile_blanks b (noHead_cons.2 hblank)
    refine ⟨hd, ?_⟩
    rw [NoOperator, hdrop]
    exact noHead_cons.2 (not_multiplicative_of_additive op.mem)
  | multiplicative => exact hd

/-- Digits do not begin with another character. -/
theorem Digits.noHead (digits : Digits) {c : Char} (h : digit.accepts c = false)
    (cs : List Char) : NoHead (· == c) (digits.chars ++ cs) := by
  obtain ⟨ds, hne, hds⟩ := digits
  cases ds with
  | nil => exact absurd rfl hne
  | cons d ds =>
    refine noHead_cons.2 (beq_eq_false_iff_ne.2 fun hdc => ?_)
    rw [← hdc, hds d List.mem_cons_self] at h
    cases h

/-- What is derived does not begin with white space. -/
theorem Tree.noHead_blank {n : Nonterminal} (t : Tree n) (cs : List Char) :
    NoHead blank.accepts (t.text ++ cs) := by
  induction t generalizing cs with
  | number negative digits =>
    cases negative with
    | true => exact noHead_cons.2 (accepts_mark (by decide)).1
    | false =>
      obtain ⟨c, ds, hc⟩ := List.exists_cons_of_ne_nil digits.ne_nil
      simp only [text, signText, Bool.false_eq_true, ↓reduceIte, List.nil_append, hc,
        List.cons_append]
      exact noHead_cons.2 (not_blank_of_digit (digits.accepted c (by rw [hc]; simp)))
  | paren before sum after _ => exact noHead_cons.2 (accepts_mark (by decide)).1
  | operand t ih => exact ih cs
  | operation left before op after right ih _ =>
    rw [text, List.append_assoc]
    exact ih _

end OrderedChoice.Calculator
