import OrderedChoice.Proofs.Semantics.Adequacy
import OrderedChoice.Transform

/-!
# No text is lost

Where every transform of a grammar keeps the texts of its arguments, the text of a value is the
text that was matched: whatever quantifiers and lookaheads there are, each symbol adds to the value
just the text by which it moves the cursor.

* `Rule.PreservesText` and `Grammar.PreservesText` say which grammars keep texts;
  `Rule.preservesText_apply` names the ready-made transforms that may be used;
* `Derives.hasText` is the step from the expressions inside to an expression, for each rule of
  `Derives`, and `Matches.hasText` the result for all expressions;
* `text_preserved` says it of every call of the engine and of every parse.
-/

namespace OrderedChoice

variable {τ : Type}

/-- The value of a rule has the texts of its symbols, joined, unless it is the matched text. -/
def Rule.PreservesText (meaning : Meaning τ) (x : Rule τ) : Prop :=
  ∀ t, x.transform = some t → ∀ (args : List Value) (c : Context τ), c.rule = x →
    args.length = x.symbols.length → (meaning t args c).text = Value.textOfItems args

/-- All rules of a grammar and of the grammars that it imports preserve texts. -/
def Grammar.PreservesText (meaning : Meaning τ) (g : Grammar τ) : Prop :=
  ∀ h : Grammar τ, h.IsPartOf g → ∀ e ∈ h.expressions, ∀ x ∈ e.rules, x.PreservesText meaning

/-- Of the ready-made transforms, joining and listing preserve texts, and so does taking the first
of one. -/
theorem Rule.preservesText_apply {x : Rule Transform}
    (h : x.transform = none ∨ x.transform = some .concat ∨ x.transform = some .list ∨
      x.transform = some .first ∧ x.symbols.length = 1) : x.PreservesText Transform.apply := by
  intro t ht args c _ hlen
  rw [ht] at h
  rcases h with h | h | h | ⟨h, h1⟩
  · cases h
  · cases h
    rfl
  · cases h
    rfl
  · cases h
    obtain ⟨v, rfl⟩ := List.length_eq_one_iff.1 (hlen.trans h1)
    exact String.append_empty.symm

namespace Result

variable {α : Type} {r : Result (List Value)} {p q : Position} {v : Value}

/-- The text of a success is the text it was matched from. -/
def HasText (text : α → String) (p : Position) (r : Result α) : Prop :=
  ∀ a q, r = ok a q → p.Spans (text a).toList q

theorem hasText_fail {text : α → String} : HasText text p fail := nofun

theorem hasText_err {text : α → String} {e : GrammarError} : HasText text p (err e) := nofun

theorem hasText_ok {text : α → String} {a : α} (h : p.Spans (text a).toList q) :
    HasText text p (ok a q) := by
  rintro _ _ ⟨⟩
  exact h

/-- A value before others adds its text. -/
theorem HasText.cons (h : r.HasText Value.textOfItems q) (hv : p.Spans v.text.toList q) :
    (r.map (v :: ·)).HasText Value.textOfItems p := by
  intro vs q' hvs
  cases r with
  | ok us q'' =>
    cases hvs
    rw [Value.textOfItems, String.toList_append]
    exact hv.trans (h us q' rfl)
  | fail => cases hvs
  | err e => cases hvs

/-- The text of a list is that of its items. -/
theorem HasText.list (h : r.HasText Value.textOfItems p) : (r.map .list).HasText Value.text p := by
  intro v q' hv
  cases r with
  | ok us q'' =>
    cases hv
    rw [Value.text]
    exact h us q' rfl
  | fail => cases hv
  | err e => cases hv

theorem hasText_ofChars {cs : List Char} (h : p.Spans cs q) :
    (ok (Value.ofChars cs) q).HasText Value.text p := by
  refine hasText_ok ?_
  rwa [Value.ofChars, Value.text, String.toList_ofList]

end Result

theorem Terminal.Takes.hasText {t : Terminal} {q : Quantifier} {p : Position} {r : Result Value}
    (h : t.Takes q p r) : r.HasText Value.text p := by
  cases h with
  | missing => exact Result.hasText_fail
  | absent => exact Result.hasText_ok (.refl p)
  | single _ _ hs => exact Result.hasText_ofChars hs
  | repeated _ _ _ hs => exact Result.hasText_ofChars hs

/-- The text of whatever a judgement comes to is the text it was matched from. -/
def Judgement.HasText (meaning : Meaning τ) : Judgement τ → Prop
  | repetition _ p r => r.HasText Value.textOfItems p
  | quantified _ _ p r => r.HasText Value.text p
  | symbol _ _ p r => r.HasText Value.text p
  | symbols _ _ p r => r.HasText Value.textOfItems p
  | rule _ x p r => x.PreservesText meaning → r.HasText Value.text p
  | rules _ xs p r => (∀ x ∈ xs, x.PreservesText meaning) → r.HasText Value.text p

/-- One step: if the expressions inside have their texts, so has what is made of them. -/
theorem Derives.hasText {s : Setting τ} {R : Semantics τ} {J : Judgement τ}
    (hR : ∀ f p r, R f p r → r.HasText Value.text p) (d : Derives s R J) :
    J.HasText s.meaning := by
  induction d with
  | repeatEnd => exact Result.hasText_ok (.refl _)
  | repeatIdle h _ =>
    refine Result.hasText_ok ?_
    -- an item that matches nothing is kept once, and has no text
    rw [Value.textOfItems, Value.textOfItems, String.append_empty]
    exact hR _ _ _ h _ _ rfl
  | repeatOn h _ _ ih => exact ih.cons (hR _ _ _ h _ _ rfl)
  | repeatError => exact Result.hasText_err
  | one h => exact hR _ _ _ h
  | optional h _ => exact hR _ _ _ h
  | absent => exact Result.hasText_ok (.refl _)
  | zeroOrMore _ ih => exact ih.list
  | oneOrMore _ _ ih => exact ih.list
  | tooFew => exact Result.hasText_fail
  | literal _ h => exact h.hasText
  | pattern _ h => exact h.hasText
  | reference _ _ _ ih => exact ih
  | unresolved => exact Result.hasText_err
  | done => exact Result.hasText_ok (.refl _)
  | kept _ _ _ ih ih' => exact ih'.cons (ih _ _ rfl)
  -- what is given back or passed over adds `null`, which has no text
  | givenBack _ _ _ _ ih' => exact ih'.cons (.refl _)
  | passedOver _ _ _ _ ih' => exact ih'.cons (.refl _)
  | failed => exact Result.hasText_fail
  | broken => exact Result.hasText_err
  | transformed ht d ih =>
    intro hx
    refine Result.hasText_ok ?_
    -- the transform is given the values of the symbols, whose texts it keeps
    rw [hx _ ht _ _ rfl d.length_eq]
    exact ih _ _ rfl
  | plain _ _ hs => exact fun _ => Result.hasText_ofChars hs
  | ruleFails => exact fun _ => Result.hasText_fail
  | ruleError => exact fun _ => Result.hasText_err
  | noRule => exact fun _ => Result.hasText_fail
  | chosen _ _ ih => exact fun hx => ih (hx _ List.mem_cons_self)
  | next _ _ _ ih' => exact fun hx => ih' fun x hmem => hx x (List.mem_cons_of_mem _ hmem)

/-- The text of a value is the text that the expression has matched. -/
theorem Matches.hasText {s : Setting τ} {g : Grammar τ} {f : Frame τ} {p : Position}
    {r : Result Value} (hg : g.PreservesText s.meaning) (h : Matches s f p r) (hf : f.IsIn g) :
    r.HasText Value.text p := by
  refine Matches.induct_on (P := fun _ p r => r.HasText Value.text p) (C := fun f _ => f.IsIn g)
    ?_ ?_ ?_ h hf
  · rintro f p f' p' hf ⟨⟨ref, href⟩, -⟩
    exact hf.resolve href
  · exact fun _ _ _ _ _ _ => Result.hasText_err
  · intro f p r hf _ d
    exact d.hasText (fun _ _ _ h => h) (hg _ hf.1 _ hf.2)

/-! ### Slices of the input -/

/-- The characters from one offset of a text to another. -/
def IsSlice (text : List Char) (i j : Nat) (cs : List Char) : Prop :=
  ∃ before after, text = before ++ cs ++ after ∧ i = byteLength before ∧ j = i + byteLength cs

theorem Position.Spans.isSlice {text cs : List Char} {p q : Position}
    (hp : (Position.start text).Reaches p) (h : p.Spans cs q) :
    IsSlice text p.offset q.offset cs := by
  obtain ⟨before, hbefore⟩ := hp
  refine ⟨before, q.rest, (hbefore.trans h).1, ?_, h.2⟩
  rw [hbefore.2]
  exact Nat.zero_add _

/-- **No input text is lost, duplicated or invented**, in any call of the engine on an expression
of the grammar at a place of the input, nor in a parse. -/
theorem text_preserved (s : Session τ) (hs : s.grammar.PreservesText s.meaning) (input : String) :
    (∀ bound g e m v m', g.IsPartOf s.grammar → e ∈ g.expressions →
      (Position.start input.toList).Reaches m.position →
      matchExpression (s.setting input.toList) bound g e m = ⟨.matched v, m'⟩ →
      IsSlice input.toList m.cursor m'.cursor v.text.toList) ∧
    ∀ v, (s.parse input).1.outcome = .matched v →
      v.text.toList <+: input.toList ∧ (s.config.requireFullMatch = true → v.text = input) := by
  constructor
  · intro bound g e m v m' hg he hp hm
    have hr : (matchExpression (s.setting input.toList) bound g e m).result? =
        some (.ok v m'.position) := by rw [hm]; rfl
    have hmatches := ((result?_matchExpression _ bound g e m _).1 hr).matches
    exact (hmatches.hasText hs ⟨hg, he⟩ v _ rfl).isSlice hp
  · intro v hv
    have hy : s.Yields input.toList (.ok (some v)) :=
      (s.answer?_parse_iff input _).1 (by rw [hv]; rfl)
    -- a value is that of the root expression, matched at the start of the input
    cases hy with
    | @value e _ q he hmatches hfull =>
      have hspans : (Position.start input.toList).Spans v.text.toList q :=
        hmatches.hasText hs ⟨.self, Grammar.mem_of_root? he⟩ v q rfl
      refine ⟨hspans.isPrefix, fun hrequired => ?_⟩
      have hrest : input.toList = v.text.toList ++ q.rest := hspans.1
      rw [hfull hrequired, List.append_nil] at hrest
      exact String.toList_inj.1 hrest.symm

/-! ### An instance -/

/-- An accented letter with a letter behind it that may be missing. -/
def accent : Expression Transform :=
  ⟨"accent", [⟨[⟨.literal "é", .one, .consume⟩, ⟨.literal "b", .optional, .consume⟩],
    some .concat⟩]⟩

/-- Such letters after a look ahead, with a mark behind them that is passed over if missing. -/
def accents : Expression Transform :=
  ⟨"accents", [⟨[⟨.literal "é", .one, .assert⟩, ⟨.reference ⟨none, "accent"⟩, .oneOrMore, .consume⟩,
    ⟨.literal "!", .one, .lenient⟩], some .list⟩]⟩

def accentGrammar : Grammar Transform :=
  .ofMembers "accents" (some "accents") [accents, accent] []

theorem mem_accentGrammar {e : Expression Transform} (h : e ∈ accentGrammar.expressions) :
    e = accents ∨ e = accent := by
  simpa [accentGrammar] using h

theorem preservesText_accentGrammar : accentGrammar.PreservesText Transform.apply := by
  intro h hp e he x hx
  cases hp with
  | self =>
    refine Rule.preservesText_apply ?_
    obtain rfl | rfl := mem_accentGrammar he
    · obtain rfl := List.mem_singleton.1 hx
      exact .inr (.inr (.inl rfl))
    · obtain rfl := List.mem_singleton.1 hx
      exact .inr (.inl rfl)
  | ofImport hi _ => cases hi

theorem text_preserved_accents :
    accentGrammar.PreservesText Transform.apply ∧
    IsSlice "ébé".toList 0 5
      (Value.list [.null, .list [.string "éb", .string "é"], .null]).text.toList ∧
    (Value.list [.null, .list [.string "éb", .string "é"], .null]).text = "ébé" := by
  have h := text_preserved
    (Session.new accentGrammar Transform.apply (Config.default.withFullMatch true))
    preservesText_accentGrammar "ébé"
  have hcall := h.1 3 accentGrammar accents (.start "ébé".toList) _ _ .self List.mem_cons_self
    (.refl _) rfl
  exact ⟨preservesText_accentGrammar, hcall, (h.2 _ rfl).2 rfl⟩

end OrderedChoice
