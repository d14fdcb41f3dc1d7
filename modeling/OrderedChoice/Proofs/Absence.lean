import OrderedChoice.Proofs.Semantics.Rewriting
import OrderedChoice.Proofs.Semantics.Terminal
import OrderedChoice.Transform

/-!
# Two ways to be absent

A symbol may be missing because it is lenient, and then a rule passes over it with `null`, or
because its quantifier allows for none of it, and then its value is the empty string or an empty
list.  Either leaves the place where it was, and adds nothing to the text of the rule.  So where
rules make nothing but text of their symbols, it does not matter which of the two is meant.

* `Derives.symbol_orNone`: a symbol of which there may be none comes to what it has come to, or to
  its `Symbol.absence`;
* `readsAs_iff_of_loosens`: sequences of symbols come to the same text;
* `Session.parse_loosened`: parses come to the same.
-/

namespace OrderedChoice

variable {τ : Type}

/-- The quantifier that allows for none as well. -/
def Quantifier.orNone : Quantifier → Quantifier
  | one => optional
  | oneOrMore => zeroOrMore
  | q => q

/-- A symbol is kept, or if it is lenient it stands there as one that may be absent. -/
inductive Symbol.Loosens : Symbol → Symbol → Prop
  | kept (x : Symbol) : Loosens x x
  | loosened {x : Symbol} : x.lookahead = .lenient →
      Loosens x ((x.quantified x.quantifier.orNone).withLookahead .consume)

/-- A rule with any number of lenient symbols replaced. -/
structure Rule.Loosens (x x' : Rule τ) : Prop where
  transform_eq : x'.transform = x.transform
  symbols : List.Forall₂ Symbol.Loosens x.symbols x'.symbols

/-- Rules with any number of lenient symbols replaced. -/
def Loosens : List (Rule τ) → List (Rule τ) → Prop := List.Forall₂ Rule.Loosens

/-- The transform of the rule, if it has one, joins the texts of its arguments. -/
def Rule.Concatenates (meaning : Meaning τ) (x : Rule τ) : Prop :=
  ∀ t, x.transform = some t → ∀ args c, meaning t args c = .string (Value.textOfItems args)

/-- All rules of a grammar and of the grammars that it imports make text of text. -/
def Grammar.Concatenates (meaning : Meaning τ) (g : Grammar τ) : Prop :=
  ∀ h : Grammar τ, h.IsPartOf g → ∀ e ∈ h.expressions, ∀ x ∈ e.rules, x.Concatenates meaning

namespace Result

variable {α β : Type}

/-- The result, or a value at a place instead of a failure. -/
def orElse (r : Result α) (a : α) (p : Position) : Result α :=
  match r with
  | ok b q => ok b q
  | fail => ok a p
  | err e => err e

theorem orElse_of_ne {r : Result α} (h : r ≠ fail) (a : α) (p : Position) : r.orElse a p = r := by
  cases r with
  | fail => exact absurd rfl h
  | ok | err => rfl

end Result

/-! ### What may be absent -/

/-- What stands for a symbol of which there is none. -/
def Symbol.absence (x : Symbol) : Value :=
  match x.kind with
  | .reference _ => if x.quantifier.isRepeating then .list [] else .string ""
  | _ => .string ""

/-- It adds nothing to the text. -/
theorem Symbol.text_absence (x : Symbol) : x.absence.text = "" := by
  unfold absence
  split
  · split <;> rfl
  · rfl

theorem Terminal.takes_orNone {t : Terminal} {q : Quantifier} {p : Position} {r : Result Value} :
    t.Takes q.orNone p r ↔ ∃ c, t.Takes q p c ∧ r = c.orElse (.string "") p := by
  have hresult : t.result q.orNone p = (t.result q p).orElse (.string "") p := by
    unfold result taken?
    cases t.occurrence? p.rest with
    | none =>
      have hnone : Value.ofChars [] = .string "" := rfl
      cases q <;> simp [Quantifier.orNone, Quantifier.allowsNone, Result.orElse, hnone,
        p.advance_zero]
    | some n => cases q <;> rfl
  simp only [takes_iff, hresult, exists_eq_left]

namespace Derives

variable {s : Setting τ} {R : Semantics τ} {f : Frame τ} {p q : Position} {x x' : Symbol}

/-- A repetition does not fail. -/
theorem repetition_ne_fail {r : Result (List Value)} (h : Derives s R (.repetition f p r)) :
    r ≠ .fail := by
  generalize hJ : Judgement.repetition f p r = J at h
  induction h generalizing p r with
  | repeatOn _ _ _ ih =>
    cases hJ
    exact Result.map_ne_fail (ih rfl)
  | repeatEnd | repeatIdle | repeatError =>
    cases hJ
    nofun
  | _ => cases hJ

/-- A repetition without rounds ends where it began. -/
theorem eq_of_repetition_nil (h : Derives s R (.repetition f p (.ok [] q))) : q = p := by
  generalize hr : Result.ok [] q = r at h
  cases h with
  | repeatEnd =>
    cases hr
    rfl
  | repeatIdle => cases hr
  | @repeatOn _ _ _ _ r => cases r <;> cases hr
  | repeatError => cases hr

theorem quantified_orNone {n : Quantifier} {r : Result Value} :
    Derives s R (.quantified n.orNone f p r) ↔ ∃ c, Derives s R (.quantified n f p c) ∧
      r = c.orElse (if n.isRepeating then .list [] else .string "") p := by
  cases n with
  | one =>
    constructor
    · intro h
      cases h with
      | optional h hne => exact ⟨r, .one h, (Result.orElse_of_ne hne _ _).symm⟩
      | absent h => exact ⟨.fail, .one h, rfl⟩
    · rintro ⟨c, h, rfl⟩
      cases h with
      | one h =>
        by_cases hc : c = .fail
        · subst hc
          exact .absent h
        · rw [Result.orElse_of_ne hc]
          exact .optional h hc
  | optional =>
    have hne : ∀ {c}, Derives s R (.quantified .optional f p c) → c ≠ .fail := by
      intro c h
      cases h with
      | optional _ hne => exact hne
      | absent => nofun
    constructor
    · exact fun h => ⟨r, h, (Result.orElse_of_ne (hne h) _ _).symm⟩
    · rintro ⟨c, h, rfl⟩
      rwa [Result.orElse_of_ne (hne h)]
  | zeroOrMore =>
    have hne : ∀ {c}, Derives s R (.quantified .zeroOrMore f p c) → c ≠ .fail := by
      intro c h
      cases h with
      | zeroOrMore h => exact Result.map_ne_fail h.repetition_ne_fail
    constructor
    · exact fun h => ⟨r, h, (Result.orElse_of_ne (hne h) _ _).symm⟩
    · rintro ⟨c, h, rfl⟩
      rwa [Result.orElse_of_ne (hne h)]
  | oneOrMore =>
    constructor
    · intro h
      cases h with
      | @zeroOrMore _ _ r h =>
        by_cases hnil : ∃ q, r = .ok [] q
        · obtain ⟨q, rfl⟩ := hnil
          obtain rfl := h.eq_of_repetition_nil
          exact ⟨.fail, .tooFew h, rfl⟩
        · have hsome : ∀ q, r ≠ .ok [] q := fun q hq => hnil ⟨q, hq⟩
          have hne : r.map Value.list ≠ .fail := Result.map_ne_fail h.repetition_ne_fail
          exact ⟨_, .oneOrMore h hsome, (Result.orElse_of_ne hne _ _).symm⟩
    · rintro ⟨c, h, rfl⟩
      cases h with
      | @oneOrMore _ _ r h _ =>
        have hne : r.map Value.list ≠ .fail := Result.map_ne_fail h.repetition_ne_fail
        rw [Result.orElse_of_ne hne]
        exact .zeroOrMore h
      | tooFew h =>
        obtain rfl := h.eq_of_repetition_nil
        exact .zeroOrMore h

/-- A symbol of which there may be none comes to what it has come to, or is absent. -/
theorem symbol_orNone {l : Lookahead} {r : Result Value} :
    Derives s R (.symbol f ((x.quantified x.quantifier.orNone).withLookahead l) p r) ↔
      ∃ c, Derives s R (.symbol f x p c) ∧ r = c.orElse x.absence p := by
  constructor
  · intro h
    cases h with
    | @literal _ _ text _ _ hk h =>
      have hkind : x.kind = .literal text := hk
      obtain ⟨c, h', rfl⟩ := Terminal.takes_orNone.1 h
      exact ⟨c, .literal hk h', by simp only [Symbol.absence, hkind]⟩
    | @pattern _ _ d _ _ hk h =>
      have hkind : x.kind = .pattern d := hk
      obtain ⟨c, h', rfl⟩ := Terminal.takes_orNone.1 h
      exact ⟨c, .pattern hk h', by simp only [Symbol.absence, hkind]⟩
    | @reference _ _ _ ref _ _ hk hf h =>
      have hkind : x.kind = .reference ref := hk
      obtain ⟨c, h', rfl⟩ := quantified_orNone.1 h
      exact ⟨c, .reference hk hf h', by simp only [Symbol.absence, hkind]⟩
    | unresolved hk hf => exact ⟨_, .unresolved hk hf, rfl⟩
  · rintro ⟨c, h, rfl⟩
    cases h with
    | literal hk h =>
      simp only [Symbol.absence, hk]
      exact .literal hk (Terminal.takes_orNone.2 ⟨c, h, rfl⟩)
    | pattern hk h =>
      simp only [Symbol.absence, hk]
      exact .pattern hk (Terminal.takes_orNone.2 ⟨c, h, rfl⟩)
    | reference hk hf h =>
      simp only [Symbol.absence, hk]
      exact .reference hk hf (quantified_orNone.2 ⟨c, h, rfl⟩)
    | unresolved hk hf => exact .unresolved hk hf

end Derives

/-! ### What is read, as text -/

/-- What symbols come to, but for the values of a success only their texts, joined. -/
def ReadsAs (s : Setting τ) (R : Semantics τ) (f : Frame τ) (xs : List Symbol) (p : Position)
    (t : Result String) : Prop :=
  ∃ r, Derives s R (.symbols f xs p r) ∧ r.map Value.textOfItems = t

/-- What a rule makes of a symbol, but for a value only its text. -/
def KeepsAs (s : Setting τ) (R : Semantics τ) (f : Frame τ) (x : Symbol) (p : Position)
    (t : Result String) : Prop :=
  ∃ c, Derives s R (.symbol f x p c) ∧ (x.lookahead.keeps p c).map Value.text = t

section

variable {s : Setting τ} {R : Semantics τ} {f : Frame τ} {p : Position} {t : Result String}

/-- The text of a sequence begins with that of its first symbol. -/
theorem readsAs_cons_iff {x : Symbol} {xs : List Symbol} : ReadsAs s R f (x :: xs) p t ↔
    ∃ c, KeepsAs s R f x p c ∧
      c.Then (fun u q t => ∃ t', ReadsAs s R f xs q t' ∧ t = t'.map (u ++ ·)) t := by
  have hmap : ∀ (v : Value) (r : Result (List Value)),
      (r.map (v :: ·)).map Value.textOfItems = (r.map Value.textOfItems).map (v.text ++ ·) := by
    intro v r
    cases r <;> rfl
  constructor
  · rintro ⟨r, h, rfl⟩
    obtain ⟨c, hx, h⟩ := Derives.symbols_cons_iff.1 h
    refine ⟨_, ⟨c, hx, rfl⟩, ?_⟩
    generalize x.lookahead.keeps p c = c at h ⊢
    cases c with
    | ok v q =>
      obtain ⟨r', hxs, rfl⟩ := h
      exact ⟨_, ⟨r', hxs, rfl⟩, hmap v r'⟩
    | fail =>
      obtain rfl : r = .fail := h
      exact rfl
    | err e =>
      obtain rfl : r = .err e := h
      exact rfl
  · rintro ⟨_, ⟨c, hx, rfl⟩, h⟩
    have hcons : ∀ r, (x.lookahead.keeps p c).Then
        (fun v q r => ∃ r', Derives s R (.symbols f xs q r') ∧ r = r'.map (v :: ·)) r →
        Derives s R (.symbols f (x :: xs) p r) :=
      fun r h => Derives.symbols_cons_iff.2 ⟨c, hx, h⟩
    generalize x.lookahead.keeps p c = c at h hcons
    cases c with
    | ok v q =>
      obtain ⟨_, ⟨r', hxs, rfl⟩, rfl⟩ := h
      exact ⟨_, hcons _ ⟨r', hxs, rfl⟩, hmap v r'⟩
    | fail =>
      obtain rfl : t = .fail := h
      exact ⟨_, hcons _ rfl, rfl⟩
    | err e =>
      obtain rfl : t = .err e := h
      exact ⟨_, hcons _ rfl, rfl⟩

/-- Passed over or absent, a symbol has no text, and otherwise it has the same. -/
theorem Symbol.Loosens.keepsAs_iff {x x' : Symbol} (h : x.Loosens x') :
    KeepsAs s R f x p t ↔ KeepsAs s R f x' p t := by
  cases h with
  | kept => exact Iff.rfl
  | loosened hl =>
    have hkeeps : ∀ c, (Lookahead.consume.keeps p (c.orElse x.absence p)).map Value.text =
        (x.lookahead.keeps p c).map Value.text := by
      intro c
      rw [hl]
      cases c with
      | ok v q => rfl
      | fail => exact congrArg (Result.ok · p) x.text_absence
      | err e => rfl
    constructor
    · rintro ⟨c, h, rfl⟩
      exact ⟨_, Derives.symbol_orNone.2 ⟨c, h, rfl⟩, hkeeps c⟩
    · rintro ⟨_, h, rfl⟩
      obtain ⟨c, h', rfl⟩ := Derives.symbol_orNone.1 h
      exact ⟨c, h', (hkeeps c).symm⟩

theorem readsAs_iff_of_loosens {xs xs' : List Symbol} (h : List.Forall₂ Symbol.Loosens xs xs') :
    ReadsAs s R f xs p t ↔ ReadsAs s R f xs' p t := by
  induction h generalizing p t with
  | nil => exact Iff.rfl
  | cons hx _ ih => simp only [readsAs_cons_iff, hx.keepsAs_iff, ih]

/-- Rules come to the same if their symbols have the same text. -/
theorem Derives.rule_of_readsAs {x x' : Rule τ} (ht : x'.transform = x.transform)
    (hx : x.Concatenates s.meaning)
    (hreads : ∀ t, ReadsAs s R f x.symbols p t → ReadsAs s R f x'.symbols p t) {r : Result Value}
    (h : Derives s R (.rule f x p r)) : Derives s R (.rule f x' p r) := by
  have hok : ∀ args q, Derives s R (.symbols f x.symbols p (.ok args q)) →
      ∃ args', Derives s R (.symbols f x'.symbols p (.ok args' q)) ∧
        Value.textOfItems args' = Value.textOfItems args := by
    intro args q h
    obtain ⟨r', h', hr⟩ := hreads _ ⟨_, h, rfl⟩
    cases r' with
    | ok args' q' =>
      obtain ⟨htext, rfl⟩ : Value.textOfItems args' = Value.textOfItems args ∧ q' = q := by
        simpa [Result.map] using hr
      exact ⟨args', h', htext⟩
    | fail | err => cases hr
  cases h with
  | @transformed _ _ t _ _ _ ht' h =>
    obtain ⟨args', h', htext⟩ := hok _ _ h
    have hrule := Derives.transformed (ht.trans ht') h'
    rw [hx t ht', htext, ← hx t ht' _ (f.context s x p _)] at hrule
    exact hrule
  | plain ht' h hs =>
    obtain ⟨args', h', -⟩ := hok _ _ h
    exact .plain (ht.trans ht') h' hs
  | ruleFails h =>
    obtain ⟨r', h', hr⟩ := hreads _ ⟨_, h, rfl⟩
    cases r' with
    | fail => exact .ruleFails h'
    | ok | err => cases hr
  | ruleError h =>
    obtain ⟨r', h', hr⟩ := hreads _ ⟨_, h, rfl⟩
    cases r' with
    | err => cases hr; exact .ruleError h'
    | ok | fail => cases hr

theorem Rule.Loosens.rule_iff {x x' : Rule τ} (h : x.Loosens x') (hx : x.Concatenates s.meaning)
    {r : Result Value} : Derives s R (.rule f x p r) ↔ Derives s R (.rule f x' p r) := by
  have hx' : x'.Concatenates s.meaning := fun t ht => hx t (h.transform_eq.symm.trans ht)
  have hreads : ∀ t, ReadsAs s R f x.symbols p t ↔ ReadsAs s R f x'.symbols p t :=
    fun t => readsAs_iff_of_loosens h.symbols
  exact ⟨Derives.rule_of_readsAs h.transform_eq hx fun t => (hreads t).1,
    Derives.rule_of_readsAs h.transform_eq.symm hx' fun t => (hreads t).2⟩

theorem Loosens.rules_iff {rules rules' : List (Rule τ)} (h : Loosens rules rules')
    (hrules : ∀ x ∈ rules, x.Concatenates s.meaning) {r : Result Value} :
    Derives s R (.rules f rules p r) ↔ Derives s R (.rules f rules' p r) := by
  induction h generalizing r with
  | nil => exact Iff.rfl
  | cons hx _ ih =>
    obtain ⟨hconcat, hrest⟩ := List.forall_mem_cons.1 hrules
    simp only [Derives.rules_cons_iff, hx.rule_iff hconcat, ih hrest]

end

/-- Each rule stands for one with the same transform. -/
theorem Loosens.exists_transform_eq {rules rules' : List (Rule τ)} (h : Loosens rules rules')
    {x' : Rule τ} (hx' : x' ∈ rules') : ∃ x ∈ rules, x'.transform = x.transform := by
  induction h with
  | nil => cases hx'
  | @cons x _ xs _ hx _ ih =>
    rcases List.mem_cons.1 hx' with rfl | hx'
    · exact ⟨x, List.mem_cons_self, hx.transform_eq⟩
    · obtain ⟨y, hy, ht⟩ := ih hx'
      exact ⟨y, List.mem_cons_of_mem x hy, ht⟩

theorem preserves_loosens {s : Setting τ} {root : Grammar τ} (hs : root.Concatenates s.meaning) :
    s.Preserves Loosens root where
  rules_iff hin h := h.rules_iff (hs _ hin.1 _ hin.2)
  meaning_eq {g g' e e' rule t args p q} hpart he _ hchange hrule ht := by
    obtain ⟨x, hx, htx⟩ := hchange.rules.exists_transform_eq hrule
    have hconcat := hs g hpart e he x hx t (htx.symm.trans ht) args
    rw [hconcat, hconcat]

/-- **Lenient lookahead and optional quantifiers agree.**  Where rules make nothing but text of
their symbols, any number of lenient symbols may be replaced by symbols of which there may be none,
and every parse comes to the same. -/
theorem Session.parse_loosened (s : Session τ) (g' : Grammar τ)
    (hg : s.grammar.Rewrites Loosens g') (hs : s.grammar.Concatenates s.meaning)
    (input : String) :
    ((s.withGrammar g').parse input).1.outcome = (s.parse input).1.outcome :=
  outcome_rewritten hg (fun _ => preserves_loosens hs) input

/-! ### Accents that may be missing -/

/-- Accents before a letter, if there are any. -/
def lenientSound : Expression Transform :=
  ⟨"sound", [⟨[⟨.literal "é", .oneOrMore, .lenient⟩, .literal "b"], none⟩]⟩

/-- A sign and sounds, if there are any, before a mark. -/
def lenientWord : Expression Transform :=
  ⟨"word", [⟨[⟨.literal "-", .one, .lenient⟩, ⟨.reference ⟨none, "sound"⟩, .oneOrMore, .lenient⟩,
    .literal "!"], some .concat⟩]⟩

/-- Words with lenient symbols. -/
def lenientWords : Grammar Transform :=
  .ofMembers "words" (some "word") [lenientWord, lenientSound] []

/-- Sounds as before, with accents that may be absent. -/
def looseSound : Expression Transform :=
  ⟨"sound", [⟨[⟨.literal "é", .zeroOrMore, .consume⟩, .literal "b"], none⟩]⟩

/-- Words as before, with a sign and sounds that may be absent. -/
def looseWord : Expression Transform :=
  ⟨"word", [⟨[⟨.literal "-", .optional, .consume⟩,
    ⟨.reference ⟨none, "sound"⟩, .zeroOrMore, .consume⟩, .literal "!"], some .concat⟩]⟩

/-- Words without lenient symbols. -/
def looseWords : Grammar Transform :=
  .ofMembers "words" (some "word") [looseWord, looseSound] []

theorem rewrites_lenientWords : lenientWords.Rewrites Loosens looseWords := by
  have hword : lenientWord.Rewrites Loosens looseWord :=
    ⟨rfl, .cons ⟨rfl, .cons (.loosened rfl) (.cons (.loosened rfl) (.cons (.kept _) .nil))⟩ .nil⟩
  have hsound : lenientSound.Rewrites Loosens looseSound :=
    ⟨rfl, .cons ⟨rfl, .cons (.loosened rfl) (.cons (.kept _) .nil)⟩ .nil⟩
  refine .intro rfl rfl (fun n => ?_) fun _ => .none
  by_cases hn : "word" = n
  · subst hn
    exact .some hword
  · by_cases hn' : "sound" = n
    · subst hn'
      exact .some hsound
    · have hnone : lenientWords.expression? n = none := by
        simp [Grammar.expression?_ofMembers, lenientWords, lenientWord, lenientSound, hn, hn']
      have hnone' : looseWords.expression? n = none := by
        simp [Grammar.expression?_ofMembers, looseWords, looseWord, looseSound, hn, hn']
      rw [hnone, hnone']
      exact .none

theorem concatenates_lenientWords : lenientWords.Concatenates Transform.apply := by
  intro h hpart e he x hx
  cases hpart with
  | self =>
    simp only [lenientWords, Grammar.expressions_ofMembers, List.mem_cons, List.not_mem_nil,
      or_false] at he
    rcases he with rfl | rfl
    · obtain rfl := List.mem_singleton.1 hx
      rintro _ ⟨⟩ args c
      rfl
    · obtain rfl := List.mem_singleton.1 hx
      nofun
  | ofImport hi _ => cases hi

theorem Session.parse_loosened_words :
    let s := Session.new lenientWords Transform.apply .default
    lenientWords.Rewrites Loosens looseWords ∧ lenientWords.Concatenates Transform.apply ∧
    ((s.withGrammar looseWords).parse "béb!").1.outcome = .matched (.string "béb!") := by
  have houtcome : ((Session.new lenientWords Transform.apply .default).parse "béb!").1.outcome =
      .matched (.string "béb!") := rfl
  intro s
  have hloose := parse_loosened s looseWords rewrites_lenientWords concatenates_lenientWords "béb!"
  exact ⟨rewrites_lenientWords, concatenates_lenientWords, hloose.trans houtcome⟩

end OrderedChoice
