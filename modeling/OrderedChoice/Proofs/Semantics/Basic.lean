import OrderedChoice.Match.Engine
import OrderedChoice.Proofs.Parts
import OrderedChoice.Proofs.Span

/-!
# What a grammar matches

The meaning of grammars, said without a machine: which construct of a grammar, tried at which place
of a text, comes to which `Result`.  A place is a byte offset with the text behind it.

* `Terminal.Takes` is the meaning of a literal or a pattern with a quantifier;
* `Derives s R` gives the rules for repeated and optional expressions, symbols, sequences of
  symbols, rules and lists of rules, where `R` says what expressions come to;
* `Matches s` is what expressions come to: it is the least `R` that follows its own rules.

An expression is matched in a `Frame`, which holds the grammar that is active in it and how many
levels of nesting are left; no other part of the run of a parse has a say.  `Matches.induct` is
induction over nested expressions.  By `Derives.mono` a derivation depends only on expressions
that its references lead to, at places that are not before its own.
-/

namespace OrderedChoice

variable {τ : Type}

/-- What trying to match something at a place comes to: a value and the place behind it, a
failure, or an error. -/
inductive Result (α : Type) where
  | ok (a : α) (p : Position)
  | fail
  | err (e : GrammarError)

namespace Result

variable {α β : Type}

/-- The result with another value. -/
def map (f : α → β) : Result α → Result β
  | ok a p => ok (f a) p
  | fail => fail
  | err e => err e

theorem map_ne_fail {f : α → β} {r : Result α} (h : r ≠ fail) : r.map f ≠ fail := by
  cases r with
  | fail => exact absurd rfl h
  | ok | err => nofun

/-- Whether a success lies ahead of a place. -/
def IsAheadOf (r : Result α) (p : Position) : Prop := ∀ a q, r = ok a q → p.Reaches q

theorem isAheadOf_map {f : α → β} {r : Result α} {p : Position} (h : r.IsAheadOf p) :
    (r.map f).IsAheadOf p := by
  intro b q hb
  cases r with
  | ok a q' => cases hb; exact h a q rfl
  | fail => cases hb
  | err e => cases hb

theorem IsAheadOf.trans {r : Result α} {p q : Position} (h : r.IsAheadOf q) (hp : p.Reaches q) :
    r.IsAheadOf p := fun a q' hq => hp.trans (h a q' hq)

theorem isAheadOf_fail (p : Position) : (fail : Result α).IsAheadOf p := nofun

theorem isAheadOf_err (e : GrammarError) (p : Position) : (err e : Result α).IsAheadOf p := nofun

theorem isAheadOf_ok {a : α} {p q : Position} (h : p.Reaches q) : (ok a q).IsAheadOf p := by
  rintro _ _ ⟨⟩
  exact h

end Result

/-! ### Literals and patterns -/

namespace Terminal

/-- The texts that are one occurrence of a terminal. -/
inductive Occurs : Terminal → List Char → Prop
  | literal (text : List Char) : Occurs (.literal text) text
  | pattern {p : Pattern} {c : Char} : p.accepts c = true → Occurs (.pattern p) [c]

/-- The texts that consist of occurrences of a terminal. -/
inductive Repeats (t : Terminal) : List Char → Prop
  | nil : Repeats t []
  | cons {a b : List Char} : t.Occurs a → Repeats t b → Repeats t (a ++ b)

/-- A text begins with an occurrence. -/
def BeginsWith (t : Terminal) (cs : List Char) : Prop := ∃ a, t.Occurs a ∧ a <+: cs

/-- `a` is the longest text of occurrences that `cs` begins with. -/
def LongestRun (t : Terminal) (a cs : List Char) : Prop :=
  a <+: cs ∧ t.Repeats a ∧ ∀ b, b <+: cs → t.Repeats b → b.length ≤ a.length

/-- What a quantified terminal comes to: one occurrence, or all that follow each other. -/
inductive Takes (t : Terminal) (q : Quantifier) (p : Position) : Result Value → Prop
  | missing : ¬ t.BeginsWith p.rest → q.allowsNone = false → Takes t q p .fail
  | absent : ¬ t.BeginsWith p.rest → q.allowsNone = true → Takes t q p (.ok (.string "") p)
  | single {a : List Char} {p' : Position} : q.isRepeating = false → t.Occurs a →
      p.Spans a p' → Takes t q p (.ok (.ofChars a) p')
  | repeated {a : List Char} {p' : Position} : q.isRepeating = true → t.BeginsWith p.rest →
      t.LongestRun a p.rest → p.Spans a p' → Takes t q p (.ok (.ofChars a) p')

theorem Takes.isAheadOf {t : Terminal} {q : Quantifier} {p : Position} {r : Result Value}
    (h : t.Takes q p r) : r.IsAheadOf p := by
  cases h with
  | missing => exact Result.isAheadOf_fail p
  | absent => exact Result.isAheadOf_ok (.refl p)
  | single _ _ hs => exact Result.isAheadOf_ok ⟨_, hs⟩
  | repeated _ _ _ hs => exact Result.isAheadOf_ok ⟨_, hs⟩

end Terminal

/-! ### Rules of the game -/

/-- An expression that is to be matched. -/
structure Frame (τ : Type) where
  /-- How many levels expressions may still nest, this one included, if that is limited. -/
  room : Option Nat
  /-- The grammar in which the references of the expression are looked up. -/
  grammar : Grammar τ
  expression : Expression τ

namespace Frame

/-- The frame of an expression that a reference leads to. -/
def inner (f : Frame τ) (g : Grammar τ) (e : Expression τ) : Frame τ :=
  ⟨f.room.map (· - 1), g, e⟩

/-- The expression that a reference in a frame leads to. -/
def resolve (f : Frame τ) (ref : Reference) : Except GrammarError (Frame τ) :=
  (f.grammar.resolve ref f.expression.name).map fun (g, e) => f.inner g e

theorem resolve_eq_ok {f f' : Frame τ} {ref : Reference} (h : f.resolve ref = .ok f') :
    ∃ g e, f.grammar.resolve ref f.expression.name = .ok (g, e) ∧ f' = f.inner g e := by
  unfold resolve at h
  cases hr : f.grammar.resolve ref f.expression.name with
  | error err =>
    rw [hr] at h
    cases h
  | ok x =>
    rw [hr] at h
    cases h
    exact ⟨x.1, x.2, rfl, rfl⟩

/-- An unqualified reference leads to the expression of its name. -/
theorem resolve_local {room : Option Nat} {g : Grammar τ} {e f : Expression τ} {name : String}
    (h : g.expression? name = some f) :
    (Frame.mk room g e).resolve ⟨none, name⟩ = .ok ⟨room.map (· - 1), g, f⟩ := by
  simp only [Frame.resolve, Grammar.resolve, Grammar.target?, h, Except.map, Frame.inner]

/-- The expression is one of the grammar `g` or of a part of it. -/
def IsIn (f : Frame τ) (g : Grammar τ) : Prop :=
  f.grammar.IsPartOf g ∧ f.expression ∈ f.grammar.expressions

theorem IsIn.resolve {f f' : Frame τ} {g : Grammar τ} {ref : Reference} (h : f.IsIn g)
    (hr : f.resolve ref = .ok f') : f'.IsIn g := by
  obtain ⟨g', e', hr', rfl⟩ := resolve_eq_ok hr
  exact h.1.of_resolve hr'

/-- What the transform of a rule may look at after the rule has matched between two places. -/
def context (f : Frame τ) (s : Setting τ) (rule : Rule τ) (p q : Position) : Context τ :=
  ⟨f.grammar, f.expression, rule, s.input, p, q⟩

end Frame

/-- What expressions come to at places. -/
abbrev Semantics (τ : Type) := Frame τ → Position → Result Value → Prop

/-- Something that can be tried at a place, with what it comes to. -/
inductive Judgement (τ : Type) where
  /-- The expression of a frame, again and again. -/
  | repetition (f : Frame τ) (p : Position) (r : Result (List Value))
  /-- The expression of a frame, as often as a quantifier says. -/
  | quantified (q : Quantifier) (f : Frame τ) (p : Position) (r : Result Value)
  | symbol (f : Frame τ) (x : Symbol) (p : Position) (r : Result Value)
  | symbols (f : Frame τ) (xs : List Symbol) (p : Position) (r : Result (List Value))
  | rule (f : Frame τ) (x : Rule τ) (p : Position) (r : Result Value)
  | rules (f : Frame τ) (xs : List (Rule τ)) (p : Position) (r : Result Value)

/-- What constructs come to, given what expressions come to. -/
inductive Derives (s : Setting τ) (R : Semantics τ) : Judgement τ → Prop
  -- an expression is repeated until it fails or matches nothing, which is kept
  | repeatEnd {f : Frame τ} {p : Position} : R f p .fail →
      Derives s R (.repetition f p (.ok [] p))
  | repeatIdle {f : Frame τ} {p q : Position} {v : Value} : R f p (.ok v q) →
      q.offset = p.offset → Derives s R (.repetition f p (.ok [v] q))
  | repeatOn {f : Frame τ} {p q : Position} {v : Value} {r : Result (List Value)} :
      R f p (.ok v q) → q.offset ≠ p.offset → Derives s R (.repetition f q r) →
      Derives s R (.repetition f p (r.map (v :: ·)))
  | repeatError {f : Frame τ} {p : Position} {e : GrammarError} : R f p (.err e) →
      Derives s R (.repetition f p (.err e))
  -- a quantifier
  | one {f : Frame τ} {p : Position} {r : Result Value} : R f p r →
      Derives s R (.quantified .one f p r)
  | optional {f : Frame τ} {p : Position} {r : Result Value} : R f p r → r ≠ .fail →
      Derives s R (.quantified .optional f p r)
  | absent {f : Frame τ} {p : Position} : R f p .fail →
      Derives s R (.quantified .optional f p (.ok (.string "") p))
  | zeroOrMore {f : Frame τ} {p : Position} {r : Result (List Value)} :
      Derives s R (.repetition f p r) → Derives s R (.quantified .zeroOrMore f p (r.map .list))
  | oneOrMore {f : Frame τ} {p : Position} {r : Result (List Value)} :
      Derives s R (.repetition f p r) → (∀ q, r ≠ .ok [] q) →
      Derives s R (.quantified .oneOrMore f p (r.map .list))
  | tooFew {f : Frame τ} {p q : Position} : Derives s R (.repetition f p (.ok [] q)) →
      Derives s R (.quantified .oneOrMore f p .fail)
  -- a symbol; a reference is looked up before anything is matched
  | literal {f : Frame τ} {x : Symbol} {text : String} {p : Position} {r : Result Value} :
      x.kind = .literal text → (Terminal.literal text.toList).Takes x.quantifier p r →
      Derives s R (.symbol f x p r)
  | pattern {f : Frame τ} {x : Symbol} {c : Pattern} {p : Position} {r : Result Value} :
      x.kind = .pattern c → (Terminal.pattern c).Takes x.quantifier p r →
      Derives s R (.symbol f x p r)
  | reference {f f' : Frame τ} {x : Symbol} {ref : Reference} {p : Position} {r : Result Value} :
      x.kind = .reference ref → f.resolve ref = .ok f' →
      Derives s R (.quantified x.quantifier f' p r) → Derives s R (.symbol f x p r)
  | unresolved {f : Frame τ} {x : Symbol} {ref : Reference} {e : GrammarError} {p : Position} :
      x.kind = .reference ref → f.resolve ref = .error e → Derives s R (.symbol f x p (.err e))
  -- symbols from left to right
  | done {f : Frame τ} {p : Position} : Derives s R (.symbols f [] p (.ok [] p))
  | kept {f : Frame τ} {x : Symbol} {xs : List Symbol} {p q : Position} {v : Value}
      {r : Result (List Value)} : x.lookahead ≠ .assert → Derives s R (.symbol f x p (.ok v q)) →
      Derives s R (.symbols f xs q r) → Derives s R (.symbols f (x :: xs) p (r.map (v :: ·)))
  | givenBack {f : Frame τ} {x : Symbol} {xs : List Symbol} {p q : Position} {v : Value}
      {r : Result (List Value)} : x.lookahead = .assert → Derives s R (.symbol f x p (.ok v q)) →
      Derives s R (.symbols f xs p r) → Derives s R (.symbols f (x :: xs) p (r.map (.null :: ·)))
  | passedOver {f : Frame τ} {x : Symbol} {xs : List Symbol} {p : Position}
      {r : Result (List Value)} : x.lookahead = .lenient → Derives s R (.symbol f x p .fail) →
      Derives s R (.symbols f xs p r) → Derives s R (.symbols f (x :: xs) p (r.map (.null :: ·)))
  | failed {f : Frame τ} {x : Symbol} {xs : List Symbol} {p : Position} :
      x.lookahead ≠ .lenient → Derives s R (.symbol f x p .fail) →
      Derives s R (.symbols f (x :: xs) p .fail)
  | broken {f : Frame τ} {x : Symbol} {xs : List Symbol} {p : Position} {e : GrammarError} :
      Derives s R (.symbol f x p (.err e)) → Derives s R (.symbols f (x :: xs) p (.err e))
  -- a rule ends in its transform, or in the text it has matched
  | transformed {f : Frame τ} {x : Rule τ} {t : τ} {p q : Position} {args : List Value} :
      x.transform = some t → Derives s R (.symbols f x.symbols p (.ok args q)) →
      Derives s R (.rule f x p (.ok (s.meaning t args (f.context s x p q)) q))
  | plain {f : Frame τ} {x : Rule τ} {p q : Position} {args : List Value} {text : List Char} :
      x.transform = none → Derives s R (.symbols f x.symbols p (.ok args q)) →
      p.Spans text q → Derives s R (.rule f x p (.ok (.ofChars text) q))
  | ruleFails {f : Frame τ} {x : Rule τ} {p : Position} :
      Derives s R (.symbols f x.symbols p .fail) → Derives s R (.rule f x p .fail)
  | ruleError {f : Frame τ} {x : Rule τ} {p : Position} {e : GrammarError} :
      Derives s R (.symbols f x.symbols p (.err e)) → Derives s R (.rule f x p (.err e))
  -- the first rule that does not fail
  | noRule {f : Frame τ} {p : Position} : Derives s R (.rules f [] p .fail)
  | chosen {f : Frame τ} {x : Rule τ} {xs : List (Rule τ)} {p : Position} {r : Result Value} :
      Derives s R (.rule f x p r) → r ≠ .fail → Derives s R (.rules f (x :: xs) p r)
  | next {f : Frame τ} {x : Rule τ} {xs : List (Rule τ)} {p : Position} {r : Result Value} :
      Derives s R (.rule f x p .fail) → Derives s R (.rules f xs p r) →
      Derives s R (.rules f (x :: xs) p r)

/-- What an expression comes to: an error where it nests too deeply, else what its rules do. -/
inductive Matches (s : Setting τ) : Semantics τ
  | tooDeep {f : Frame τ} {p : Position} {limit : Nat} : f.room = some 0 → s.limit = some limit →
      Matches s f p (.err (.depthExceeded limit f.expression.name))
  | inside {f : Frame τ} {p : Position} {r : Result Value} : f.room ≠ some 0 →
      Derives s (Matches s) (.rules f f.expression.rules p r) → Matches s f p r

/-! ### A derivation looks ahead, and only where references lead -/

namespace Judgement

/-- Whether a success lies ahead. -/
def IsAhead : Judgement τ → Prop
  | repetition _ p r => r.IsAheadOf p
  | quantified _ _ p r => r.IsAheadOf p
  | symbol _ _ p r => r.IsAheadOf p
  | symbols _ _ p r => r.IsAheadOf p
  | rule _ _ p r => r.IsAheadOf p
  | rules _ _ p r => r.IsAheadOf p

/-- The places from `p` on, in the expressions that references of a frame lead to. -/
def CallsFrom (f : Frame τ) (p : Position) (f' : Frame τ) (p' : Position) : Prop :=
  (∃ ref, f.resolve ref = .ok f') ∧ p.Reaches p'

/-- The expressions and places that a derivation may depend on. -/
def Calls : Judgement τ → Frame τ → Position → Prop
  | repetition f p _, f', p' => f' = f ∧ p.Reaches p'
  | quantified _ f p _, f', p' => f' = f ∧ p.Reaches p'
  | symbol f _ p _, f', p' => CallsFrom f p f' p'
  | symbols f _ p _, f', p' => CallsFrom f p f' p'
  | rule f _ p _, f', p' => CallsFrom f p f' p'
  | rules f _ p _, f', p' => CallsFrom f p f' p'

theorem CallsFrom.of_reaches {f f' : Frame τ} {p q p' : Position} (h : CallsFrom f q f' p')
    (hp : p.Reaches q) : CallsFrom f p f' p' := ⟨h.1, hp.trans h.2⟩

end Judgement

variable {s : Setting τ} {R S : Semantics τ} {J : Judgement τ}

theorem Derives.isAhead (hR : ∀ f p r, R f p r → r.IsAheadOf p) (d : Derives s R J) :
    J.IsAhead := by
  induction d with
  | repeatEnd => exact Result.isAheadOf_ok (.refl _)
  | repeatIdle h _ => exact Result.isAheadOf_ok (hR _ _ _ h _ _ rfl)
  | repeatOn h _ _ ih => exact Result.isAheadOf_map (ih.trans (hR _ _ _ h _ _ rfl))
  | repeatError => exact Result.isAheadOf_err _ _
  | one h => exact hR _ _ _ h
  | optional h _ => exact hR _ _ _ h
  | absent => exact Result.isAheadOf_ok (.refl _)
  | zeroOrMore _ ih => exact Result.isAheadOf_map ih
  | oneOrMore _ _ ih => exact Result.isAheadOf_map ih
  | tooFew => exact Result.isAheadOf_fail _
  | literal _ h => exact h.isAheadOf
  | pattern _ h => exact h.isAheadOf
  | reference _ _ _ ih => exact ih
  | unresolved => exact Result.isAheadOf_err _ _
  | done => exact Result.isAheadOf_ok (.refl _)
  | kept _ _ _ ih ih' => exact Result.isAheadOf_map (ih'.trans (ih _ _ rfl))
  | givenBack _ _ _ _ ih' => exact Result.isAheadOf_map ih'
  | passedOver _ _ _ _ ih' => exact Result.isAheadOf_map ih'
  | failed => exact Result.isAheadOf_fail _
  | broken => exact Result.isAheadOf_err _ _
  | transformed _ _ ih => exact Result.isAheadOf_ok (ih _ _ rfl)
  | plain _ _ _ ih => exact Result.isAheadOf_ok (ih _ _ rfl)
  | ruleFails => exact Result.isAheadOf_fail _
  | ruleError => exact Result.isAheadOf_err _ _
  | noRule => exact Result.isAheadOf_fail _
  | chosen _ _ ih => exact ih
  | next _ _ _ ih' => exact ih'

/-- What expressions come to matters only where a derivation may call them. -/
theorem Derives.mono (hR : ∀ f p r, R f p r → r.IsAheadOf p) (d : Derives s R J)
    (h : ∀ f p r, J.Calls f p → R f p r → S f p r) : Derives s S J := by
  induction d with
  | repeatEnd h' => exact .repeatEnd (h _ _ _ ⟨rfl, .refl _⟩ h')
  | repeatIdle h' ho => exact .repeatIdle (h _ _ _ ⟨rfl, .refl _⟩ h') ho
  | repeatOn h' ho _ ih =>
    have hp := hR _ _ _ h' _ _ rfl
    exact .repeatOn (h _ _ _ ⟨rfl, .refl _⟩ h') ho
      (ih fun f p r hc => h f p r ⟨hc.1, hp.trans hc.2⟩)
  | repeatError h' => exact .repeatError (h _ _ _ ⟨rfl, .refl _⟩ h')
  | one h' => exact .one (h _ _ _ ⟨rfl, .refl _⟩ h')
  | optional h' hr => exact .optional (h _ _ _ ⟨rfl, .refl _⟩ h') hr
  | absent h' => exact .absent (h _ _ _ ⟨rfl, .refl _⟩ h')
  | zeroOrMore _ ih => exact .zeroOrMore (ih h)
  | oneOrMore _ hr ih => exact .oneOrMore (ih h) hr
  | tooFew _ ih => exact .tooFew (ih h)
  | literal hk ht => exact .literal hk ht
  | pattern hk ht => exact .pattern hk ht
  | reference hk hf _ ih =>
    refine .reference hk hf (ih ?_)
    rintro f p r ⟨rfl, hp⟩
    exact h f p r ⟨⟨_, hf⟩, hp⟩
  | unresolved hk hf => exact .unresolved hk hf
  | done => exact .done
  | kept hl d _ ih ih' =>
    -- what follows a symbol is called from behind it, so from places that are still ahead
    have hp := d.isAhead hR _ _ rfl
    exact .kept hl (ih h) (ih' fun f p r hc => h f p r (hc.of_reaches hp))
  | givenBack hl _ _ ih ih' => exact .givenBack hl (ih h) (ih' h)
  | passedOver hl _ _ ih ih' => exact .passedOver hl (ih h) (ih' h)
  | failed hl _ ih => exact .failed hl (ih h)
  | broken _ ih => exact .broken (ih h)
  | transformed ht _ ih => exact .transformed ht (ih h)
  | plain ht _ hs ih => exact .plain ht (ih h) hs
  | ruleFails _ ih => exact .ruleFails (ih h)
  | ruleError _ ih => exact .ruleError (ih h)
  | noRule => exact .noRule
  | chosen _ hr ih => exact .chosen (ih h) hr
  | next _ _ ih ih' => exact .next (ih h) (ih' h)

/-- A reference without a quantifier comes to what it leads to. -/
theorem Derives.once {f i : Frame τ} {ref : Reference} {p : Position} {r : Result Value}
    (hi : f.resolve ref = .ok i) (h : R i p r) :
    Derives s R (.symbol f (.ofKind (.reference ref)) p r) := .reference rfl hi (.one h)

/-- A sequence that goes on behind its first symbol. -/
theorem Derives.then_ok {f : Frame τ} {x : Symbol} {xs : List Symbol} {p q q' : Position}
    {v : Value} {vs : List Value} (hl : x.lookahead = .consume)
    (h : Derives s R (.symbol f x p (.ok v q))) (h' : Derives s R (.symbols f xs q (.ok vs q'))) :
    Derives s R (.symbols f (x :: xs) p (.ok (v :: vs) q')) := .kept (by rw [hl]; nofun) h h'

theorem Derives.then_fail {f : Frame τ} {x : Symbol} {xs : List Symbol} {p q : Position}
    {v : Value} (hl : x.lookahead = .consume) (h : Derives s R (.symbol f x p (.ok v q)))
    (h' : Derives s R (.symbols f xs q .fail)) : Derives s R (.symbols f (x :: xs) p .fail) :=
  .kept (by rw [hl]; nofun) h h'

theorem Derives.then_err {f : Frame τ} {x : Symbol} {xs : List Symbol} {p q : Position} {v : Value}
    {e : GrammarError} (hl : x.lookahead = .consume) (h : Derives s R (.symbol f x p (.ok v q)))
    (h' : Derives s R (.symbols f xs q (.err e))) : Derives s R (.symbols f (x :: xs) p (.err e)) :=
  .kept (by rw [hl]; nofun) h h'

theorem Derives.fail_first {f : Frame τ} {x : Symbol} {xs : List Symbol} {p : Position}
    (hl : x.lookahead = .consume) (h : Derives s R (.symbol f x p .fail)) :
    Derives s R (.symbols f (x :: xs) p .fail) := .failed (by rw [hl]; nofun) h

/-- The symbols of a rule have one value each. -/
theorem Derives.length_eq {f : Frame τ} {xs : List Symbol} {p q : Position} {vs : List Value}
    (d : Derives s R (.symbols f xs p (.ok vs q))) : vs.length = xs.length := by
  -- stated of all judgements, since the induction is on a derivation of one of them
  have hJ : ∀ J, Derives s R J → ∀ f xs p r, J = .symbols f xs p r →
      ∀ vs q, r = .ok vs q → vs.length = xs.length := by
    intro J d
    induction d with
    | done =>
      rintro _ _ _ _ ⟨⟩ _ _ ⟨⟩
      rfl
    | @kept _ _ _ _ _ _ r _ _ _ _ ih =>
      rintro _ _ _ _ ⟨⟩ _ _ hr
      cases r <;> cases hr
      exact congrArg (· + 1) (ih _ _ _ _ rfl _ _ rfl)
    | @givenBack _ _ _ _ _ _ r _ _ _ _ ih =>
      rintro _ _ _ _ ⟨⟩ _ _ hr
      cases r <;> cases hr
      exact congrArg (· + 1) (ih _ _ _ _ rfl _ _ rfl)
    | @passedOver _ _ _ _ r _ _ _ _ ih =>
      rintro _ _ _ _ ⟨⟩ _ _ hr
      cases r <;> cases hr
      exact congrArg (· + 1) (ih _ _ _ _ rfl _ _ rfl)
    | failed | broken =>
      rintro _ _ _ _ ⟨⟩ _ _ hr
      cases hr
    | _ =>
      rintro _ _ _ _ hJ
      cases hJ
  exact hJ _ d f xs p _ rfl vs q rfl

/-- **Induction over nested expressions**: what holds of expressions whose rules depend only on
expressions of which it holds, holds of all expressions. -/
theorem Matches.induct {P : Semantics τ}
    (tooDeep : ∀ f p limit, f.room = some 0 → s.limit = some limit →
      P f p (.err (.depthExceeded limit f.expression.name)))
    (inside : ∀ f p r, f.room ≠ some 0 →
      Derives s (fun f p r => Matches s f p r ∧ P f p r) (.rules f f.expression.rules p r) →
      P f p r) {f : Frame τ} {p : Position} {r : Result Value} (h : Matches s f p r) : P f p r := by
  refine @Matches.rec τ s (fun f p r _ => P f p r)
    (fun J _ => Derives s (fun f p r => Matches s f p r ∧ P f p r) J)
    ?_ ?_ ?_ ?_ ?_ ?_ ?_ ?_ ?_ ?_ ?_ ?_ ?_ ?_ ?_ ?_ ?_ ?_ ?_ ?_ ?_ ?_ ?_ ?_ ?_ ?_ ?_ ?_ ?_
    _ _ _ h
  -- every premise on an expression inside is paired with what is known of that expression
  · exact fun hf hl => tooDeep _ _ _ hf hl
  · exact fun hf _ ih => inside _ _ _ hf ih
  · exact fun h ih => .repeatEnd ⟨h, ih⟩
  · exact fun h ho ih => .repeatIdle ⟨h, ih⟩ ho
  · exact fun h ho _ ih ih' => .repeatOn ⟨h, ih⟩ ho ih'
  · exact fun h ih => .repeatError ⟨h, ih⟩
  · exact fun h ih => .one ⟨h, ih⟩
  · exact fun h hr ih => .optional ⟨h, ih⟩ hr
  · exact fun h ih => .absent ⟨h, ih⟩
  · exact fun _ ih => .zeroOrMore ih
  · exact fun _ hr ih => .oneOrMore ih hr
  · exact fun _ ih => .tooFew ih
  · exact fun hk ht => .literal hk ht
  · exact fun hk ht => .pattern hk ht
  · exact fun hk hf _ ih => .reference hk hf ih
  · exact fun hk hf => .unresolved hk hf
  · exact .done
  · exact fun hl _ _ ih ih' => .kept hl ih ih'
  · exact fun hl _ _ ih ih' => .givenBack hl ih ih'
  · exact fun hl _ _ ih ih' => .passedOver hl ih ih'
  · exact fun hl _ ih => .failed hl ih
  · exact fun _ ih => .broken ih
  · exact fun ht _ ih => .transformed ht ih
  · exact fun ht _ hs ih => .plain ht ih hs
  · exact fun _ ih => .ruleFails ih
  · exact fun _ ih => .ruleError ih
  · exact .noRule
  · exact fun _ hr ih => .chosen ih hr
  · exact fun _ _ ih ih' => .next ih ih'

theorem Matches.isAheadOf {f : Frame τ} {p : Position} {r : Result Value} (h : Matches s f p r) :
    r.IsAheadOf p := by
  refine Matches.induct (P := fun _ p r => r.IsAheadOf p) (fun _ p _ _ _ => ?_)
    (fun _ _ _ _ d => ?_) h
  · exact Result.isAheadOf_err _ p
  · exact d.isAhead fun _ _ _ h => h.2

/-- Induction over expressions and places of a kind that all calls of one of them are of. -/
theorem Matches.induct_on {P : Semantics τ} {C : Frame τ → Position → Prop}
    (hC : ∀ f p f' p', C f p → Judgement.CallsFrom f p f' p' → C f' p')
    (tooDeep : ∀ f p limit, C f p → f.room = some 0 → s.limit = some limit →
      P f p (.err (.depthExceeded limit f.expression.name)))
    (inside : ∀ f p r, C f p → f.room ≠ some 0 →
      Derives s P (.rules f f.expression.rules p r) → P f p r)
    {f : Frame τ} {p : Position} {r : Result Value} (h : Matches s f p r) (hc : C f p) :
    P f p r := by
  refine Matches.induct (P := fun f p r => C f p → P f p r)
    (fun f p limit hf hl hc => tooDeep f p limit hc hf hl) (fun f p r hf d hc => ?_) h hc
  refine inside f p r hc hf (d.mono (fun _ _ _ h => h.1.isAheadOf) fun f' p' r' hcall hr => ?_)
  exact hr.2 (hC f p f' p' hc hcall)

end OrderedChoice
