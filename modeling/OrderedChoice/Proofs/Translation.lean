import OrderedChoice.Proofs.Hygiene
import OrderedChoice.Proofs.Semantics.Transport
import OrderedChoice.Proofs.TextPreservation

/-!
# Matching depends only on the text that is left

A place and its translation have the same text left, and their offsets differ by what is before the
one and before the other (`Position.IsShifted`).  If transforms look at the text that a rule has
matched, but not at where it is, then two runs from such places do the same.

* `Simulation.shifted` holds two runs against each other in which expressions are matched with
  different text before them: they come to the same, move on by the same number of bytes and apply
  the same transforms;
* `Grammar.behind` puts a root before a grammar that takes a literal and then what has been the
  root.  It comes to the same behind the literal, one level deeper (`Session.parse_behind`).
-/

namespace OrderedChoice

variable {τ : Type}

/-! ### Translated places -/

/-- The same text is left at both places, with `a` bytes before it here and `b` there. -/
structure Position.IsShifted (a b : Nat) (p p' : Position) : Prop where
  rest_eq : p.rest = p'.rest
  offset_eq : p.offset + b = p'.offset + a

namespace Position.IsShifted

variable {a b : Nat} {p p' q q' : Position} {cs : List Char}

theorem symm (h : p.IsShifted a b p') : p'.IsShifted b a p := ⟨h.rest_eq.symm, h.offset_eq.symm⟩

theorem advance (h : p.IsShifted a b p') (n : Nat) :
    (p.advance n).IsShifted a b (p'.advance n) := by
  refine ⟨?_, ?_⟩
  · simp only [Position.advance, h.rest_eq]
  · have hoffset := h.offset_eq
    simp only [Position.advance, h.rest_eq]
    omega

theorem offset_eq_iff (h : p.IsShifted a b p') (h' : q.IsShifted a b q') :
    q.offset = p.offset ↔ q'.offset = p'.offset := by
  have hp := h.offset_eq
  have hq := h'.offset_eq
  omega

theorem unique (h : p.IsShifted a b p') (h' : p.IsShifted a b q) : p' = q := by
  obtain ⟨o, rest⟩ := p'
  obtain ⟨o', rest'⟩ := q
  have hrest : rest = rest' := h.rest_eq.symm.trans h'.rest_eq
  have ho : p.offset + b = o + a := h.offset_eq
  have ho' : p.offset + b = o' + a := h'.offset_eq
  obtain rfl : o = o' := by omega
  rw [hrest]

theorem spans (h : p.IsShifted a b p') (hs : p.Spans cs q) :
    ∃ q', q.IsShifted a b q' ∧ p'.Spans cs q' := by
  have hq : q = p.advance cs.length := hs.eq_advance
  have hprefix : cs <+: p'.rest := h.rest_eq ▸ hs.isPrefix
  exact ⟨_, hq ▸ h.advance _, spans_of_prefix hprefix⟩

end Position.IsShifted

/-- The contexts tell the same names and the same text, of the same rule. -/
structure Context.SameText (c c' : Context τ) : Prop where
  name_eq : c.grammar.name = c'.grammar.name
  expression_eq : c.expression = c'.expression
  rule_eq : c.rule = c'.rule
  matchedText_eq : c.matchedText = c'.matchedText

/-! ### Runs with different text before them -/

/-- The transform is applied to the same arguments for the same rule, at translated places. -/
structure Call.IsShifted (a b : Nat) (c c' : Call τ) : Prop where
  transform_eq : c.transform = c'.transform
  args_eq : c.args = c'.args
  grammar_eq : c.context.grammar = c'.context.grammar
  sameText : c.context.SameText c'.context
  start : c.context.start.IsShifted a b c'.context.start
  stop : c.context.stop.IsShifted a b c'.context.stop

/-- After `base` and `base'` the same transforms have been applied, at translated places. -/
def ShiftedSince (a b : Nat) (base base' log log' : List (Entry τ)) : Prop :=
  ∃ new new', log = new ++ base ∧ log' = new' ++ base' ∧
    List.Forall₂ (Call.IsShifted a b) (callsOf new) (callsOf new')

theorem matchedText_of_isShifted {a b : Nat} {g g' : Grammar τ} {e e' : Expression τ}
    {rule rule' : Rule τ} {text text' : List Char} {p p' q q' : Position}
    (hp : p.IsShifted a b p') (hq : q.IsShifted a b q') :
    Context.matchedText ⟨g, e, rule, text, p, q⟩ =
      Context.matchedText ⟨g', e', rule', text', p', q'⟩ := by
  simp only [Context.matchedText, Position.textTo, hp.rest_eq, hq.rest_eq]

/-- The setting with another text. -/
def Setting.withInput (s : Setting τ) (text : List Char) : Setting τ := { s with input := text }

theorem Setting.limit_withInput (s : Setting τ) (text : List Char) :
    (s.withInput text).limit = s.limit := rfl

/-- A run beside one with other text before it. -/
def Simulation.shifted (s : Setting τ) (text : List Char) {root : Grammar τ}
    (hroot : root.Respects s.meaning Context.SameText) (a b : Nat) (base base' : List (Entry τ)) :
    Simulation s (s.withInput text) where
  Place := Position.IsShifted a b
  Scope e g g' := g = g' ∧ g.IsPartOf root ∧ e ∈ g.expressions
  Log := ShiftedSince a b base base'
  limit_eq := (s.limit_withInput text).symm
  rest_eq h := h.rest_eq
  advance n h := h.advance n
  offset_eq_iff h h' := h.offset_eq_iff h'
  name_eq h := congrArg _ h.1
  resolve := by
    rintro e g _ _ _ ref ⟨rfl, hg, he⟩ - - -
    cases hr : g.resolve ref e.name with
    | ok n => exact .inl ⟨n.2, n.1, n.1, rfl, rfl, rfl, hg.of_resolve hr⟩
    | error err => exact .inr ⟨err, rfl, rfl⟩
  event := by
    rintro _ _ p p' q q' ev ⟨new, new', rfl, rfl, hcalls⟩ - -
    refine ⟨.event (ev p.offset q.offset) :: new, .event (ev p'.offset q'.offset) :: new',
      rfl, rfl, ?_⟩
    rwa [callsOf_cons, callsOf_cons]
  call := by
    rintro _ _ e g _ rule p p' q q' t args ⟨new, new', rfl, rfl, hcalls⟩ ⟨rfl, -, -⟩ - hp hq
    refine ⟨.call ⟨t, args, g, e, rule, s.input, p, q⟩ :: new,
      .call ⟨t, args, g, e, rule, text, p', q'⟩ :: new', rfl, rfl, ?_⟩
    rw [callsOf_cons_call, callsOf_cons_call]
    refine List.rel_append hcalls (.cons ?_ .nil)
    exact ⟨rfl, rfl, rfl, ⟨rfl, rfl, rfl, matchedText_of_isShifted hp hq⟩, hp, hq⟩
  meaning_eq := by
    rintro e g _ rule p p' q q' t args ⟨rfl, hg, he⟩ hrule ht hp hq
    exact hroot t args _ _ ⟨hg, he, hrule⟩ ht
      ⟨rfl, rfl, rfl, matchedText_of_isShifted hp hq⟩

/-! ### What an expression means with different text before it -/

namespace GrammarError

/-- The error with another limit on nesting, if it tells one and there is another. -/
def atLimit (limit? : Option Nat) : GrammarError → GrammarError
  | depthExceeded limit expression => depthExceeded (limit?.getD limit) expression
  | x => x

/-- The error of a look-up tells no limit. -/
theorem atLimit_of_resolve {g : Grammar τ} {ref : Reference} {referrer : String} {x : GrammarError}
    (h : g.resolve ref referrer = .error x) (limit? : Option Nat) : x.atLimit limit? = x := by
  unfold Grammar.resolve at h
  split at h
  · cases h
    rfl
  · split at h
    · cases h
    · cases h
      rfl

end GrammarError

/-- Translated places, and errors with another limit. -/
def Transport.shift (a b : Nat) (limit? : Option Nat) : Transport where
  Place := Position.IsShifted a b
  blame := GrammarError.atLimit limit?
  rest_eq h := h.rest_eq
  unique h h' := h.unique h'
  spans h hs := h.spans hs
  offset_eq_iff h h' := h.offset_eq_iff h'

/-- Settings with limits or without, and grammars in which references of an expression lead to the
same, where transforms do not tell translated places apart. -/
structure Translates (s s' : Setting τ) (a b : Nat)
    (Scope : Expression τ → Grammar τ → Grammar τ → Prop) : Prop where
  isSome_limit : s'.limit.isSome = s.limit.isSome
  resolve {e : Expression τ} {h h' : Grammar τ} {ref : Reference} : Scope e h h' → e.Mentions ref →
    (∃ f k k', h.resolve ref e.name = .ok (k, f) ∧ h'.resolve ref e.name = .ok (k', f) ∧
      Scope f k k') ∨
    ∃ err, h.resolve ref e.name = .error err ∧ h'.resolve ref e.name = .error err
  meaning_eq {e : Expression τ} {h h' : Grammar τ} {rule : Rule τ} {p p' q q' : Position} (t : τ)
    (args : List Value) : Scope e h h' → rule ∈ e.rules → rule.transform = some t →
    p.IsShifted a b p' → q.IsShifted a b q' →
    s'.meaning t args ⟨h', e, rule, s'.input, p', q'⟩ =
      s.meaning t args ⟨h, e, rule, s.input, p, q⟩

namespace Translates

variable {s s' : Setting τ} {a b : Nat} {Scope : Expression τ → Grammar τ → Grammar τ → Prop}

/-- What can be said of one side can be said of the other. -/
theorem symm (H : Translates s s' a b Scope) : Translates s' s b a fun e h h' => Scope e h' h where
  isSome_limit := H.isSome_limit.symm
  resolve hscope href := by
    rcases H.resolve hscope href with ⟨f, k, k', hk, hk', hf⟩ | ⟨err, hk, hk'⟩
    · exact .inl ⟨f, k', k, hk', hk, hf⟩
    · exact .inr ⟨err, hk', hk⟩
  meaning_eq t args hscope hrule ht hp hq :=
    (H.meaning_eq t args hscope hrule ht hp.symm hq.symm).symm

variable {R S : Semantics τ} {room : Option Nat} {e : Expression τ} {h h' : Grammar τ}

/-- Rules mean the same at translated places if expressions do. -/
theorem carried_rules (H : Translates s s' a b Scope) (hscope : Scope e h h')
    (hcall : ∀ f k k', Scope f k k' → (Transport.shift a b s'.limit).Carried
      (R ⟨room.map (· - 1), k, f⟩) (S ⟨room.map (· - 1), k', f⟩)) :
    (Transport.shift a b s'.limit).Carried
      (fun p r => Derives s R (.rules ⟨room, h, e⟩ e.rules p r))
      fun p r => Derives s' S (.rules ⟨room, h', e⟩ e.rules p r) := by
  refine Transport.carried_rules (List.forall₂_same.2 fun rule hrule => ?_)
  refine ⟨rfl, fun t args ht hp hq => H.meaning_eq t args hscope hrule ht hp hq,
    List.forall₂_same.2 fun x hx => ⟨rfl, ?_⟩⟩
  refine Transport.carried_symbol fun ref hk => ?_
  rcases H.resolve hscope ⟨rule, hrule, x, hx, hk⟩ with
    ⟨f, k, k', hf, hf', hscope'⟩ | ⟨err, hf, hf'⟩
  · refine .inl ⟨⟨room.map (· - 1), k, f⟩, ⟨room.map (· - 1), k', f⟩, ?_, ?_, hcall f k k' hscope'⟩
    · simp only [Frame.resolve, hf]
      rfl
    · simp only [Frame.resolve, hf']
      rfl
  · have hblame : err.atLimit s'.limit = err := GrammarError.atLimit_of_resolve hf _
    refine .inr ⟨err, ?_, ?_⟩
    · simp only [Frame.resolve, hf]
      rfl
    · simp only [Frame.resolve, hf', Transport.shift, hblame]
      rfl

/-- **An expression means the same at translated places**, but for the limit that errors tell. -/
theorem carried_matches (H : Translates s s' a b Scope) (hscope : Scope e h h') :
    (Transport.shift a b s'.limit).Carried (Matches s ⟨room, h, e⟩) (Matches s' ⟨room, h', e⟩) := by
  intro p p' r hp hmatches
  have hall := Matches.induct (P := fun f p r => ∀ h' p', Scope f.expression f.grammar h' →
      p.IsShifted a b p' → ∃ r', (Transport.shift a b s'.limit).Carries r r' ∧
        Matches s' ⟨f.room, h', f.expression⟩ p' r') ?_ ?_ hmatches
  · exact hall h' p' hscope hp
  · intro f p limit hroom hlimit h' p' _ _
    have hsome := H.isSome_limit
    rw [hlimit, Option.isSome_some, Option.isSome_iff_exists] at hsome
    obtain ⟨limit', hlimit'⟩ := hsome
    have hdeep : Matches s' ⟨f.room, h', f.expression⟩ p' _ := .tooDeep hroom hlimit'
    refine ⟨_, .err, ?_⟩
    simp only [Transport.shift, GrammarError.atLimit, hlimit', Option.getD_some]
    exact hdeep
  · intro f p r hroom hderives h' p' hscope hp
    obtain ⟨r', hr, hderives'⟩ := H.carried_rules hscope
      (fun k i i' hscope' p p' r hp hr => hr.2 i' p' hscope' hp) hp hderives
    exact ⟨r', hr, .inside hroom hderives'⟩

end Translates

/-! ### Behind a literal -/

/-- An expression that takes a literal and then the expression of a name, and hands the value of
that on with a transform. -/
def Expression.behind (name literal target : String) (second : τ) : Expression τ :=
  ⟨name, [⟨[.literal literal, .reference target], some second⟩]⟩

namespace Grammar

/-- The grammar with a new root that takes a literal before the expression of a name. -/
def behind (g : Grammar τ) (name literal target : String) (second : τ) : Grammar τ :=
  (g.define (.behind name literal target second)).setRoot name

variable {g : Grammar τ} {name literal target : String} {second : τ}

theorem root?_behind : (g.behind name literal target second).root? =
    some (.behind name literal target second) :=
  (expression?_define g _ name).trans (if_pos rfl)

/-- What is looked up from the old root is not the new one. -/
theorem sameOn_behind (h : ¬ g.LooksUp [] name) :
    g.SameOn g.LooksUp g.Qualifies (g.behind name literal target second) := by
  rintro (_ | ⟨n, path⟩) k hk hnode
  · cases hnode
    refine ⟨_, rfl, rfl, fun m hm => ?_, fun _ _ => rfl⟩
    have hne : name ≠ m := fun heq => h (heq ▸ hm)
    exact (expression?_define g _ m).trans (if_neg hne)
  · exact ⟨k, hnode, .refl _ _ k⟩

theorem isPartOf_of_node? {g h : Grammar τ} {path : List String} (hnode : g.node? path = some h) :
    h.IsPartOf g := by
  induction path generalizing g with
  | nil =>
    cases hnode
    exact .self
  | cons n path ih =>
    obtain ⟨i, hi, hnode⟩ := Option.bind_eq_some_iff.1 hnode
    exact .ofImport (mem_of_import? hi) (ih hnode)

end Grammar

section

variable {s : Setting τ} {R : Semantics τ} {f : Frame τ} {x y : Symbol} {u : Value}
  {p q : Position} (hx : x.lookahead = .consume) (hy : y.lookahead = .consume)
  (hfirst : ∀ r, Derives s R (.symbol f x p r) ↔ r = .ok u q)
include hx hy hfirst

/-- Two symbols come to what the second does, if the first always matches. -/
theorem derives_pair_iff {r : Result (List Value)} : Derives s R (.symbols f [x, y] p r) ↔
    ∃ r', Derives s R (.symbol f y q r') ∧ r = r'.map fun v => [u, v] := by
  have hmust : ∀ {z : Symbol}, z.lookahead = .consume → z.lookahead ≠ .assert := fun hz => by
    simp [hz]
  constructor
  · intro hxy
    obtain ⟨v, q', r', h, hrest, rfl⟩ | ⟨h, -⟩ | ⟨err, h, -⟩ := hxy.symbols_cons_inv hx
    · cases (hfirst _).1 h
      obtain ⟨v', q', r', h', hnil, rfl⟩ | ⟨h', rfl⟩ | ⟨err, h', rfl⟩ := hrest.symbols_cons_inv hy
      · cases hnil
        exact ⟨_, h', rfl⟩
      · exact ⟨_, h', rfl⟩
      · exact ⟨_, h', rfl⟩
    · cases (hfirst _).1 h
    · cases (hfirst _).1 h
  · rintro ⟨r', h, rfl⟩
    have hfirst' := (hfirst _).2 rfl
    cases r' with
    | ok v q' => exact .kept (hmust hx) hfirst' (.kept (hmust hy) h .done)
    | fail => exact .kept (hmust hx) hfirst' (.failed (by simp [hy]) h)
    | err err => exact .kept (hmust hx) hfirst' (.broken h)

/-- The only rule of an expression, which hands on the value of its second symbol. -/
theorem derives_second_iff {second : τ} (hsecond : ∀ u v c, s.meaning second [u, v] c = v)
    {r : Result Value} : Derives s R (.rules f [⟨[x, y], some second⟩] p r) ↔
      Derives s R (.symbol f y q r) := by
  have hpair := fun r => derives_pair_iff (r := r) hx hy hfirst
  have hrule : Derives s R (.rule f ⟨[x, y], some second⟩ p r) ↔ Derives s R (.symbol f y q r) := by
    constructor
    · intro h
      cases h with
      | transformed ht h =>
        cases ht
        obtain ⟨r', h, hr⟩ := (hpair _).1 h
        cases r' with
        | ok v q' =>
          cases hr
          rwa [hsecond]
        | fail => cases hr
        | err err => cases hr
      | plain ht => cases ht
      | ruleFails h =>
        obtain ⟨r', h, hr⟩ := (hpair _).1 h
        cases r' with
        | ok v q' => cases hr
        | fail => exact h
        | err err => cases hr
      | ruleError h =>
        obtain ⟨r', h, hr⟩ := (hpair _).1 h
        cases r' with
        | ok v q' => cases hr
        | fail => cases hr
        | err err =>
          cases hr
          exact h
    · intro h
      have h' := (hpair _).2 ⟨_, h, rfl⟩
      cases r with
      | ok v q' =>
        have hvalue := Derives.transformed (x := ⟨[x, y], some second⟩) rfl h'
        rwa [hsecond] at hvalue
      | fail => exact .ruleFails h'
      | err err => exact .ruleError h'
  rw [← hrule]
  constructor
  · intro h
    cases h with
    | chosen h => exact h
    | next h hnil =>
      cases hnil
      exact h
  · intro h
    by_cases hr : r = .fail
    · subst hr
      exact .next h .noRule
    · exact .chosen h hr

end

/-- Behind its literal, the new root comes to what the expression does, one level deeper. -/
theorem matches_behind_iff {s : Setting τ} {g : Grammar τ} {e : Expression τ}
    {name literal target : String} {second : τ} {room : Option Nat} {p q : Position}
    {r : Result Value} (hsecond : ∀ u v c, s.meaning second [u, v] c = v)
    (he : g.expression? target = some e) (hs : p.Spans literal.toList q) :
    Matches s ⟨room.map (· + 1), g, .behind name literal target second⟩ p r ↔
      Matches s ⟨room, g, e⟩ q r := by
  let f : Frame τ := ⟨room.map (· + 1), g, .behind name literal target second⟩
  have hroom : f.room ≠ some 0 := by cases room <;> simp [f]
  have hresolve : f.resolve ⟨none, target⟩ = .ok ⟨room, g, e⟩ := by
    have hroom : (room.map (· + 1)).map (· - 1) = room := by cases room <;> rfl
    rw [Frame.resolve_local he, hroom]
  have hliteral : ∀ r, Derives s (Matches s) (.symbol f (.literal literal) p r) ↔
      r = .ok (.ofChars literal.toList) q := by
    have htakes : (Terminal.literal literal.toList).Takes .one p
        (.ok (.ofChars literal.toList) q) := .single rfl (.literal _) hs
    refine fun r => ⟨fun h => ?_, fun h => h ▸ .literal rfl htakes⟩
    cases h with
    | literal hk ht =>
      cases hk
      exact ht.unique htakes
    | pattern hk => cases hk
    | reference hk => cases hk
    | unresolved hk => cases hk
  have hrefer : Derives s (Matches s) (.symbol f (.reference target) q r) ↔
      Matches s ⟨room, g, e⟩ q r := by
    refine ⟨fun h => ?_, fun h => .once hresolve h⟩
    cases h.quantified_of_reference rfl hresolve with
    | one h => exact h
  rw [← hrefer, ← derives_second_iff rfl rfl hliteral hsecond]
  constructor
  · intro h
    cases h with
    | tooDeep hzero => exact absurd hzero hroom
    | inside _ h => exact h
  · exact fun h => .inside hroom h

/-! ### Parses -/

namespace Outcome

/-- The outcome with another limit on nesting in its error. -/
def atLimit {α : Type} (limit? : Option Nat) : Outcome α → Outcome α
  | error x => error (x.atLimit limit?)
  | o => o

theorem answer?_atLimit {α : Type} (o : Outcome α) (limit? : Option Nat) :
    (o.atLimit limit?).answer? = o.answer?.map (Except.mapError (·.atLimit limit?)) := by
  cases o <;> rfl

theorem eq_endless_iff {α : Type} {o : Outcome α} : o = endless ↔ ∀ x, o.answer? ≠ some x := by
  cases o <;> simp [answer?]

end Outcome

namespace Session

/-- The session with a new root before its grammar, and with another limit on nesting. -/
def behind (s : Session τ) (name literal target : String) (second : τ)
    (maxDepth : Option UInt64) : Session τ :=
  (s.withGrammar (s.grammar.behind name literal target second)).withMaxDepth maxDepth

section

variable {s : Session τ} {e : Expression τ} {name literal target : String} {second : τ}
  {maxDepth : Option UInt64} (htarget : s.grammar.rootName = some target)
  (he : s.grammar.expression? target = some e)
  (hrespects : s.grammar.Respects s.meaning Context.SameText)
  (hname : ¬ s.grammar.LooksUp [] name)
  (hdepth : maxDepth.map (·.toNat) = s.config.maxDepth.map (·.toNat + 1))

/-- Translated results are answered with the same, as there is as much left over. -/
theorem answer_behind {text : List Char} {limit? : Option Nat}
    {r r' : Result Value}
    (hr : (Transport.shift 0 (byteLength literal.toList) limit?).Carries r r') :
    (s.behind name literal target second maxDepth).answer (literal.toList ++ text) r' =
      (s.answer text r).mapError (·.atLimit limit?) := by
  cases hr with
  | fail => rfl
  | err => rfl
  | @ok v q q' hq =>
    have hoffset : q.offset + byteLength literal.toList = q'.offset + 0 := hq.offset_eq
    have hlt : q'.offset < byteLength (literal.toList ++ text) ↔ q.offset < byteLength text := by
      rw [byteLength_append]
      omega
    have hcheck : (s.behind name literal target second maxDepth).config.requireFullMatch =
        s.config.requireFullMatch := rfl
    simp only [answer, hcheck, hlt]
    split <;> rfl

section

include hrespects hname hdepth

theorem translates_behind (text text' : List Char) (b : Nat) :
    Translates (s.setting text) ((s.behind name literal target second maxDepth).setting text') 0 b
      (s.grammar.Corresponds (s.grammar.behind name literal target second)) := by
  have hsame : s.grammar.SameOn s.grammar.LooksUp s.grammar.Qualifies
      (s.grammar.behind name literal target second) := Grammar.sameOn_behind hname
  constructor
  case isSome_limit =>
    have hsome := congrArg Option.isSome hdepth
    simpa [setting, behind, withMaxDepth, withGrammar] using hsome
  case resolve => exact fun hc href => hc.resolve hsame href
  case meaning_eq =>
    intro f h h' rule p p' q q' t args hc hrule ht hp hq
    have hgrammar := hc.name_eq hsame
    obtain ⟨path, key, -, hnode, -, hf⟩ := hc
    have hof : Context.IsOf ⟨h, f, rule, text, p, q⟩ s.grammar :=
      ⟨Grammar.isPartOf_of_node? hnode, Grammar.mem_of_expression? hf, hrule⟩
    have halike : Context.SameText ⟨h, f, rule, text, p, q⟩ ⟨h', f, rule, text', p', q'⟩ :=
      ⟨hgrammar, rfl, rfl, matchedText_of_isShifted hp hq⟩
    exact (hrespects t args _ _ hof ht halike).symm

end

variable (hsecond : ∀ u v c, s.meaning second [u, v] c = v)

include htarget he hrespects hname hdepth hsecond

/-- Whatever the root comes to in one of the sessions, it comes to in the other. -/
theorem matches_root_behind (literal : String) (text : List Char) :
    let t := s.behind name literal target second maxDepth
    let text' := literal.toList ++ text
    let limit? := maxDepth.map (·.toNat)
    let T := Transport.shift 0 (byteLength literal.toList) limit?
    let wrapper := Expression.behind name literal target second
    (∀ r, Matches (s.setting text) (s.rootFrame e) (.start text) r → ∃ r', T.Carries r r' ∧
      Matches (t.setting text') (t.rootFrame wrapper) (.start text') r') ∧
    ∀ r', Matches (t.setting text') (t.rootFrame wrapper) (.start text') r' →
      ∃ r, Matches (s.setting text) (s.rootFrame e) (.start text) r := by
  intro t text' limit? T wrapper
  have H : Translates (s.setting text) (t.setting text') 0 (byteLength literal.toList) _ :=
    translates_behind hrespects hname hdepth text text' _
  have hlooks : s.grammar.LooksUp [] target := .root htarget
  have hscope : s.grammar.Corresponds t.grammar e s.grammar t.grammar :=
    ⟨[], target, hlooks, rfl, rfl, he⟩
  have hsame : s.grammar.SameOn s.grammar.LooksUp s.grammar.Qualifies t.grammar :=
    Grammar.sameOn_behind hname
  have hfound' : t.grammar.expression? target = some e :=
    ((hsame.sameAt hlooks rfl rfl).expression?_eq _ hlooks).trans he
  let q : Position := ⟨byteLength literal.toList, text⟩
  have hq : Position.IsShifted 0 (byteLength literal.toList) (.start text) q :=
    ⟨rfl, Nat.zero_add _⟩
  have hspans : (Position.start text').Spans literal.toList q := ⟨rfl, (Nat.zero_add _).symm⟩
  have hframe : t.rootFrame wrapper =
      ⟨(s.config.maxDepth.map (·.toNat)).map (· + 1), t.grammar, wrapper⟩ := by
    have hroom : (maxDepth.map (·.toNat)) = (s.config.maxDepth.map (·.toNat)).map (· + 1) := by
      rw [hdepth, Option.map_map]
      rfl
    rw [← hroom]
    rfl
  have hiff : ∀ r, Matches (t.setting text') (t.rootFrame wrapper) (.start text') r ↔
      Matches (t.setting text') ⟨s.config.maxDepth.map (·.toNat), t.grammar, e⟩ q r := by
    intro r
    rw [hframe]
    exact matches_behind_iff hsecond hfound' hspans
  refine ⟨fun r h => ?_, fun r' h => ?_⟩
  · obtain ⟨r', hr, h'⟩ := H.carried_matches hscope hq h
    exact ⟨r', hr, (hiff r').2 h'⟩
  · obtain ⟨r, -, h'⟩ := H.symm.carried_matches hscope hq.symm ((hiff r').1 h)
    exact ⟨r, h'⟩

/-- **Behind its literal a grammar comes to what it comes to alone**, one level deeper. -/
theorem parse_behind (input : String) :
    ((s.behind name literal target second maxDepth).parse (literal ++ input)).1.outcome =
      (s.parse input).1.outcome.atLimit (maxDepth.map (·.toNat)) := by
  have htext : (literal ++ input).toList = literal.toList ++ input.toList := String.toList_append
  have hstart : s.grammar.root? = some e := by rw [Grammar.root?, htarget]; exact he
  obtain ⟨hto, hfrom⟩ :=
    matches_root_behind htarget he hrespects hname hdepth hsecond literal input.toList
  have hroot : (s.behind name literal target second maxDepth).grammar.root? = _ :=
    Grammar.root?_behind
  cases hanswer : (s.parse input).1.outcome.answer? with
  | some x =>
    obtain ⟨r, h, rfl⟩ := (yields_iff hstart).1 ((s.answer?_parse_iff input _).1 hanswer)
    obtain ⟨r', hr, h'⟩ := hto r h
    have hyields := (yields_iff (s := s.behind name literal target second maxDepth) hroot).2
      ⟨r', h', answer_behind hr⟩
    rw [← htext, ← answer?_parse_iff] at hyields
    refine Outcome.eq_of_answer? hyields ?_
    rw [Outcome.answer?_atLimit, hanswer]
    rfl
  | none =>
    have hendless : (s.parse input).1.outcome = .endless :=
      Outcome.eq_endless_iff.2 fun x hx => by cases hanswer.symm.trans hx
    rw [hendless]
    refine Outcome.eq_endless_iff.2 fun x hx => ?_
    rw [answer?_parse_iff, htext] at hx
    obtain ⟨r', h', -⟩ := (yields_iff hroot).1 hx
    obtain ⟨r, h⟩ := hfrom r' h'
    have hsome := (s.answer?_parse_iff input _).2 ((yields_iff hstart).2 ⟨r, h, rfl⟩)
    cases hanswer.symm.trans hsome

end

/-- **Matching depends only on the text that is left**, if transforms do not look at where they are
applied.  From places with the same text left a run comes to the same, moves on by the same number
of bytes and applies the same transforms.  So does a parse behind a literal, with its limit on
nesting raised by one. -/
theorem translation_invariant (s : Session τ)
    (hs : s.grammar.Respects s.meaning Context.SameText) :
    (∀ (g : Grammar τ) (e : Expression τ), g.IsPartOf s.grammar → e ∈ g.expressions →
      ∀ (before before' rest : List Char) (bound depth : Nat) (focus : Focus τ)
        (log log' : List (Entry τ)),
      let a := byteLength before
      let b := byteLength before'
      let run := matchExpression (s.setting (before ++ rest)) bound g e
        ⟨⟨a, rest⟩, depth, focus, log⟩
      let run' := matchExpression (s.setting (before' ++ rest)) bound g e
        ⟨⟨b, rest⟩, depth, focus, log'⟩
      run.outcome = run'.outcome ∧ run.machine.position.IsShifted a b run'.machine.position ∧
        ShiftedSince a b log log' run.machine.log run'.machine.log) ∧
    ∀ (e : Expression τ) (target name literal : String) (second : τ) (maxDepth : Option UInt64),
      s.grammar.rootName = some target → s.grammar.expression? target = some e →
      ¬ s.grammar.LooksUp [] name →
      (∀ u v c, s.meaning second [u, v] c = v) →
      maxDepth.map (·.toNat) = s.config.maxDepth.map (·.toNat + 1) → ∀ input,
      ((s.behind name literal target second maxDepth).parse (literal ++ input)).1.outcome =
        (s.parse input).1.outcome.atLimit (maxDepth.map (·.toNat)) := by
  refine ⟨?_, fun e target name literal second maxDepth htarget he hname hsecond hdepth input =>
    parse_behind htarget he hs hname hdepth hsecond input⟩
  intro g e hg he before before' rest bound depth focus log log' a b run run'
  have hplace : Position.IsShifted a b ⟨a, rest⟩ ⟨b, rest⟩ := ⟨rfl, Nat.add_comm a b⟩
  have halike : (Simulation.shifted (s.setting (before ++ rest)) (before' ++ rest) hs a b log
      log').Attempts run run' :=
    Simulation.attempts_matchExpression _ bound ⟨rfl, hg, he⟩
      ⟨hplace, rfl, rfl, [], [], rfl, rfl, .nil⟩
  exact ⟨halike.outcome_eq, halike.machines.place, halike.machines.log⟩

end Session

/-! ### Accents behind a sign -/

/-- Ready-made transforms see no more of a context than the text, but for those that say where they
are applied. -/
theorem Transform.apply_eq_of_matchedText (t : Transform) (hspan : t ≠ span)
    (hcontext : t ≠ context) (args : List Value) {c c' : Context Transform}
    (h : c.matchedText = c'.matchedText) : t.apply args c = t.apply args c' := by
  cases t with
  | span => exact absurd rfl hspan
  | context => exact absurd rfl hcontext
  | text => exact congrArg Value.string h
  | _ => rfl

theorem respects_accentGrammar :
    accentGrammar.Respects Transform.apply fun c c' => c.matchedText = c'.matchedText := by
  rintro t args ⟨g, e, rule, _, _, _⟩ c' ⟨hg, he, hrule⟩ ht h
  cases hg with
  | self =>
    obtain rfl | rfl := mem_accentGrammar he
    · obtain rfl := List.mem_singleton.1 hrule
      cases ht
      exact Transform.apply_eq_of_matchedText .list nofun nofun args h
    · obtain rfl := List.mem_singleton.1 hrule
      cases ht
      exact Transform.apply_eq_of_matchedText .concat nofun nofun args h
  | ofImport hi _ => cases hi

/-- Accents refer to one another only, and an accent refers to nothing. -/
theorem mentions_accentGrammar {e : Expression Transform} {ref : Reference}
    (he : e ∈ accentGrammar.expressions) (href : e.Mentions ref) : ref = ⟨none, "accent"⟩ := by
  obtain ⟨rule, hrule, x, hx, hk⟩ := href
  obtain rfl | rfl := mem_accentGrammar he
  · obtain rfl := List.mem_singleton.1 hrule
    simp only [List.mem_cons, List.not_mem_nil, or_false] at hx
    rcases hx with rfl | rfl | rfl <;> cases hk
    rfl
  · obtain rfl := List.mem_singleton.1 hrule
    simp only [List.mem_cons, List.not_mem_nil, or_false] at hx
    rcases hx with rfl | rfl <;> cases hk

theorem looksUp_accentGrammar {path : List String} {name : String}
    (h : accentGrammar.LooksUp path name) : path = [] ∧ (name = "accents" ∨ name = "accent") := by
  induction h with
  | root hroot =>
    cases hroot
    exact ⟨rfl, .inl rfl⟩
  | refer _ hnode he href _ ih =>
    obtain ⟨rfl, -⟩ := ih
    cases hnode
    obtain rfl := mentions_accentGrammar (Grammar.mem_of_expression? he) href
    exact ⟨rfl, .inr rfl⟩

/-- Behind a sign of three bytes accents come to the same, with their limit raised. -/
theorem Session.translation_invariant_accents :
    let s := Session.new accentGrammar Transform.apply (Config.default.withMaxDepth 2)
    s.grammar.Respects s.meaning Context.SameText ∧ ¬ s.grammar.LooksUp [] "signed" ∧
    ((s.behind "signed" "€" "accents" (.arg 1) (some 3)).parse ("€" ++ "éb")).1.outcome =
      .matched (.list [.null, .list [.string "éb"], .null]) := by
  intro s
  have hrespects : accentGrammar.Respects Transform.apply Context.SameText :=
    respects_accentGrammar.mono fun _ _ h => h.matchedText_eq
  have hname : ¬ accentGrammar.LooksUp [] "signed" := fun h => by
    simpa using (looksUp_accentGrammar h).2
  exact ⟨hrespects, hname, (translation_invariant s hrespects).2 accents "accents" "signed" "€"
    (.arg 1) (some 3) rfl rfl hname (fun _ _ _ => rfl) rfl "éb"⟩

end OrderedChoice
