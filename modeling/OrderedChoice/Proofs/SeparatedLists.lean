import OrderedChoice.Proofs.Depth.Limit
import OrderedChoice.Proofs.Semantics.Adequacy
import OrderedChoice.Proofs.Semantics.Terminal
import OrderedChoice.Transform

/-!
# Lists with separators

The grammar of lists: an item, and then any number of separators with an item behind each.  An item
is a text of characters of one class, and the separator begins with another character, so that an
item ends where a separator begins.

* `Separation.matches_item`, `matches_tail` and `matches_list` say what the expressions come to
  where they match, and `matches_no_tail` where a list ends: a separator without an item is given
  back;
* `Separation.derives_tails` is the repetition, by induction on the items;
* `Separation.parse_join`: a parse gives the items back that have been joined, whatever follows them
  that is not one more character or one more item.
-/

namespace OrderedChoice

/-- What the items of a list consist of, and what stands between them. -/
structure Separation where
  /-- The characters of items. -/
  pattern : Pattern
  separator : String
  /-- No item goes on with a separator. -/
  endsItem : ∃ c cs, separator.toList = c :: cs ∧ pattern.accepts c = false

namespace Separation

/-- An item of a list. -/
structure Item (σ : Separation) where
  text : String
  ne_nil : text.toList ≠ []
  accepted : ∀ c ∈ text.toList, σ.pattern.accepts c = true

variable (σ : Separation)

/-- The items with a separator between each two of them. -/
def join (items : List σ.Item) : String := σ.separator.intercalate (items.map Item.text)

/-- The value of a list. -/
def value (items : List σ.Item) : Value := .list (items.map fun i => .string i.text)

/-- Before such a text a list ends: its last item does not go on, and no item follows. -/
structure EndsBefore (rest : List Char) : Prop where
  noItem : NoHead σ.pattern.accepts rest
  noTail : ∀ after, rest = σ.separator.toList ++ after → NoHead σ.pattern.accepts after

/-! ### The grammar -/

def itemSymbol : Symbol := (Symbol.ofKind (.pattern σ.pattern)).quantified .oneOrMore

def itemExpression : Expression Transform := ⟨"item", [⟨[σ.itemSymbol], none⟩]⟩

def tailRule : Rule Transform := ⟨[.literal σ.separator, .reference "item"], some (.arg 1)⟩

def tailExpression : Expression Transform := ⟨"tail", [σ.tailRule]⟩

def listRule : Rule Transform :=
  ⟨[.reference "item", (Symbol.reference "tail").quantified .zeroOrMore], some .headTail⟩

def listExpression : Expression Transform := ⟨"list", [listRule]⟩

def grammar : Grammar Transform :=
  .ofMembers "list" (some "list") [listExpression, σ.tailExpression, σ.itemExpression] []

/-- Where an expression of the grammar is matched, with so much room for nested ones. -/
def frame (room : Option Nat) (e : Expression Transform) : Frame Transform := ⟨room, σ.grammar, e⟩

/-- What stays the same in a parse of a text. -/
def setting (limit : Option Nat) (text : List Char) : Setting Transform :=
  ⟨Transform.apply, limit, text⟩

theorem resolve_item (room : Option Nat) (e : Expression Transform) :
    (σ.frame room e).resolve ⟨none, "item"⟩ = .ok (σ.frame (room.map (· - 1)) σ.itemExpression) :=
  Frame.resolve_local rfl

theorem resolve_tail (room : Option Nat) (e : Expression Transform) :
    (σ.frame room e).resolve ⟨none, "tail"⟩ = .ok (σ.frame (room.map (· - 1)) σ.tailExpression) :=
  Frame.resolve_local rfl

/-- There is room for so many levels. -/
def HasRoom (room : Option Nat) (n : Nat) : Prop := ∀ k, room = some k → n ≤ k

variable {σ} {room limit : Option Nat} {text : List Char} {p q : Position}

theorem HasRoom.ne_zero {n : Nat} (h : HasRoom room (n + 1)) : room ≠ some 0 := by
  intro h0
  have := h 0 h0
  omega

theorem HasRoom.inner {n : Nat} (h : HasRoom room (n + 1)) : HasRoom (room.map (· - 1)) n := by
  intro k hk
  obtain ⟨m, hm, rfl⟩ := Option.map_eq_some_iff.1 hk
  have := h m hm
  omega

theorem HasRoom.mono {m n : Nat} (h : HasRoom room n) (hm : m ≤ n) : HasRoom room m :=
  fun k hk => hm.trans (h k hk)

/-! ### What follows an item -/

theorem noHead_separator (cs : List Char) :
    NoHead σ.pattern.accepts (σ.separator.toList ++ cs) := by
  obtain ⟨c, ds, hsep, hc⟩ := σ.endsItem
  rw [hsep]
  exact noHead_cons.2 hc

/-- A list ends before a separator that is the end of the text. -/
theorem endsBefore_separator : σ.EndsBefore σ.separator.toList where
  noItem := by
    have h := @noHead_separator σ []
    rwa [List.append_nil] at h
  noTail after h := by
    rw [List.self_eq_append_right.1 h]
    exact noHead_nil _

theorem endsBefore_nil : σ.EndsBefore [] where
  noItem := noHead_nil _
  noTail after h := by
    rw [(List.append_eq_nil_iff.1 h.symm).2]
    exact noHead_nil _

/-- The text of items with a separator before each of them. -/
def tailsText (items : List σ.Item) : List Char :=
  items.flatMap fun i => σ.separator.toList ++ i.text.toList

theorem toList_join (i : σ.Item) (items : List σ.Item) :
    (σ.join (i :: items)).toList = i.text.toList ++ tailsText items := by
  rw [join, List.map_cons, toList_intercalate_cons, List.flatMap_map]
  rfl

/-- An item ends before the next separator, and at the end of the list. -/
theorem noHead_tails (items : List σ.Item) {rest : List Char} (h : σ.EndsBefore rest) :
    NoHead σ.pattern.accepts (tailsText items ++ rest) := by
  cases items with
  | nil => exact h.noItem
  | cons i items =>
    rw [tailsText, List.flatMap_cons, List.append_assoc, List.append_assoc]
    exact noHead_separator _

/-! ### Items -/

theorem matches_item (hroom : HasRoom room 1) (i : σ.Item) (hs : p.Spans i.text.toList q)
    (hq : NoHead σ.pattern.accepts q.rest) :
    Matches (setting limit text) (σ.frame room σ.itemExpression) p (.ok (.string i.text) q) := by
  have htakes := Terminal.takes_run (q := .oneOrMore) rfl hs i.accepted hq (.inl i.ne_nil)
  have hvalue : Value.ofChars i.text.toList = .string i.text := by
    rw [Value.ofChars, String.ofList_toList]
  rw [← hvalue]
  have hone : Derives (setting limit text) (Matches (setting limit text))
      (.symbols (σ.frame room σ.itemExpression) [σ.itemSymbol] p
        (.ok [.ofChars i.text.toList] q)) := .then_ok rfl (.pattern rfl htakes) .done
  exact .inside hroom.ne_zero (.chosen (.plain rfl hone hs) nofun)

theorem matches_no_item (hroom : HasRoom room 1) (h : NoHead σ.pattern.accepts p.rest) :
    Matches (setting limit text) (σ.frame room σ.itemExpression) p .fail := by
  have htakes := Terminal.takes_no_run (q := .oneOrMore) rfl h
  exact .inside hroom.ne_zero (.next (.ruleFails (.fail_first rfl (.pattern rfl htakes))) .noRule)

/-! ### Separators with items -/

theorem matches_tail (hroom : HasRoom room 2) (i : σ.Item)
    (hs : p.Spans (σ.separator.toList ++ i.text.toList) q)
    (hq : NoHead σ.pattern.accepts q.rest) :
    Matches (setting limit text) (σ.frame room σ.tailExpression) p (.ok (.string i.text) q) := by
  obtain ⟨m, hsep, hitem⟩ := hs.split
  have hsymbols : Derives (setting limit text) (Matches (setting limit text))
      (.symbols (σ.frame room σ.tailExpression) σ.tailRule.symbols p
        (.ok [.ofChars σ.separator.toList, .string i.text] q)) := by
    refine .then_ok rfl (.literal rfl (.single rfl (.literal _) hsep)) ?_
    exact .then_ok rfl (.once (σ.resolve_item _ _) (matches_item hroom.inner i hitem hq)) .done
  exact .inside hroom.ne_zero (.chosen (.transformed (t := Transform.arg 1) rfl hsymbols) nofun)

/-- A separator without an item is given back. -/
theorem matches_no_tail (hroom : HasRoom room 2) (h : σ.EndsBefore p.rest) :
    Matches (setting limit text) (σ.frame room σ.tailExpression) p .fail := by
  refine .inside hroom.ne_zero (.next (.ruleFails ?_) .noRule)
  by_cases hsep : σ.separator.toList <+: p.rest
  · have hs := Position.spans_of_prefix hsep
    have hno := h.noTail _ hs.1
    refine .then_fail rfl (.literal rfl (.single rfl (.literal _) hs)) ?_
    exact .fail_first rfl (.once (σ.resolve_item _ _) (matches_no_item hroom.inner hno))
  · exact .fail_first rfl (.literal rfl (Terminal.takes_no_literal rfl hsep))

/-- **The repetition takes one item after the other**, up to the end of the list. -/
theorem derives_tails (hroom : HasRoom room 2) (items : List σ.Item)
    (hs : p.Spans (tailsText items) q) (hq : σ.EndsBefore q.rest) :
    Derives (setting limit text) (Matches (setting limit text))
      (.repetition (σ.frame room σ.tailExpression) p
        (.ok (items.map fun i => .string i.text) q)) := by
  induction items generalizing p with
  | nil =>
    obtain rfl := hs.right_unique (.refl p)
    exact .repeatEnd (matches_no_tail hroom hq)
  | cons i items ih =>
    rw [tailsText, List.flatMap_cons] at hs
    obtain ⟨m, hi, hs⟩ := hs.split
    have hm : NoHead σ.pattern.accepts m.rest := by
      rw [hs.1]
      exact noHead_tails items hq
    -- an item has some text, so that the repetition goes on behind it
    have hmoves : m.offset ≠ p.offset := by
      rw [Ne, hi.offset_eq_iff, List.append_eq_nil_iff]
      exact fun h => i.ne_nil h.2
    exact .repeatOn (matches_tail hroom i hi hm) hmoves (ih hs)

/-! ### Lists -/

theorem matches_list (hroom : HasRoom room 3) {items : List σ.Item} (hne : items ≠ [])
    (hs : p.Spans (σ.join items).toList q) (hq : σ.EndsBefore q.rest) :
    Matches (setting limit text) (σ.frame room listExpression) p (.ok (σ.value items) q) := by
  obtain ⟨i, items, rfl⟩ := List.exists_cons_of_ne_nil hne
  rw [toList_join] at hs
  obtain ⟨m, hi, hs⟩ := hs.split
  have hm : NoHead σ.pattern.accepts m.rest := by
    rw [hs.1]
    exact noHead_tails items hq
  have hsymbols : Derives (setting limit text) (Matches (setting limit text))
      (.symbols (σ.frame room listExpression) listRule.symbols p
        (.ok [.string i.text, .list (items.map fun i => .string i.text)] q)) := by
    have htails := @derives_tails σ _ limit text _ _ hroom.inner items hs hq
    refine .then_ok rfl (.once (σ.resolve_item _ _) ?_)
      (.then_ok rfl (.reference rfl (σ.resolve_tail _ _) (.zeroOrMore htails)) .done)
    exact matches_item (hroom.inner.mono (by decide)) i hi hm
  exact .inside hroom.ne_zero (.chosen (.transformed (t := Transform.headTail) rfl hsymbols) nofun)

/-! ### Parses -/

theorem root?_grammar (σ : Separation) : σ.grammar.root? = some listExpression := rfl

/-- The root expression takes the joined items, and nothing of what the list ends before. -/
theorem matches_root {s : Session Transform} (hg : s.grammar = σ.grammar)
    (hm : s.meaning = Transform.apply)
    (hdepth : ∀ limit, s.config.maxDepth = some limit → 3 ≤ limit.toNat)
    {items : List σ.Item} (hne : items ≠ []) {rest : String} (hrest : σ.EndsBefore rest.toList) :
    let input := (σ.join items ++ rest).toList
    ∃ q, (Position.start input).Spans (σ.join items).toList q ∧ q.rest = rest.toList ∧
      Matches (s.setting input) (s.rootFrame listExpression) (.start input)
        (.ok (σ.value items) q) := by
  intro input
  have hroom : HasRoom (s.config.maxDepth.map (·.toNat)) 3 := by
    intro k hk
    obtain ⟨limit, hlimit, rfl⟩ := Option.map_eq_some_iff.1 hk
    exact hdepth limit hlimit
  have hs : (Position.start input).Spans (σ.join items).toList
      ⟨byteLength (σ.join items).toList, rest.toList⟩ :=
    ⟨String.toList_append, (Nat.zero_add _).symm⟩
  refine ⟨_, hs, rfl, ?_⟩
  rw [Session.setting, Session.rootFrame, hg, hm]
  exact matches_list hroom hne hs hrest

/-- **Joined items are given back**, by any session with this grammar that leaves room for three
levels, whether or not it asks for full matches.  Where it does not, the same holds of the joined
items with any text behind them that the list ends before, and the root expression leaves off where
this text begins.  A dangling separator is such a text. -/
theorem parse_join (σ : Separation) (s : Session Transform) (hg : s.grammar = σ.grammar)
    (hm : s.meaning = Transform.apply)
    (hdepth : ∀ limit, s.config.maxDepth = some limit → 3 ≤ limit.toNat)
    (items : List σ.Item) (hne : items ≠ []) :
    (s.parse (σ.join items)).1.outcome = .matched (σ.value items) ∧
    (∀ rest : String, σ.EndsBefore rest.toList →
      let input := σ.join items ++ rest
      (s.config.requireFullMatch = false →
        (s.parse input).1.outcome = .matched (σ.value items)) ∧
      ∃ q, (s.rootAttempt input.toList listExpression).result? = some (.ok (σ.value items) q) ∧
        (Position.start input.toList).Spans (σ.join items).toList q ∧ q.rest = rest.toList) ∧
    σ.EndsBefore σ.separator.toList := by
  have hroot : s.grammar.root? = some listExpression := hg ▸ σ.root?_grammar
  refine ⟨?_, fun rest hrest => ?_, endsBefore_separator⟩
  · have hend : σ.EndsBefore "".toList := endsBefore_nil
    obtain ⟨q, -, hq, hmatches⟩ := matches_root hg hm hdepth hne hend
    rw [String.append_empty] at hmatches
    exact Session.outcome_eq_matched (.value hroot hmatches fun _ => hq)
  · obtain ⟨q, hs, hq, hmatches⟩ := matches_root hg hm hdepth hne hrest
    refine ⟨fun hpartial => ?_, q, (Session.result?_root hroot rfl rfl).2 hmatches, hs, hq⟩
    refine Session.outcome_eq_matched (.value hroot hmatches fun hfull => ?_)
    rw [hpartial] at hfull
    cases hfull

/-- Items without semicolons; the space of the separator may well be part of an item. -/
def semicolons : Separation where
  pattern := ⟨"[^;]", .oneOf (.compl (.union .empty (.range 59 59))), rfl⟩
  separator := "; "
  endsItem := ⟨';', [' '], rfl, by decide⟩

theorem accepts_semicolons (c : Char) :
    semicolons.pattern.accepts c = !(59 ≤ c.toNat && c.toNat ≤ 59) := Regex.oneOf_isFoundIn _ c

/-- A dangling separator and half a separator are given back. -/
theorem parse_join_semicolons :
    let s := Session.new semicolons.grammar Transform.apply ⟨some 3, false⟩
    let list := Value.list [.string "é1", .string " b"]
    (s.parse "é1;  b").1.outcome = .matched list ∧
    (s.parse "é1;  b; ").1.outcome = .matched list ∧
    (s.parse "é1;  b;b").1.outcome = .matched list := by
  intro s list
  have hdepth : ∀ limit, s.config.maxDepth = some limit → 3 ≤ limit.toNat := by
    rintro _ ⟨⟩
    decide
  have hhalf : semicolons.EndsBefore ";b".toList :=
    ⟨noHead_cons.2 (by decide), fun after h => by cases (List.cons.inj h).2⟩
  let first : semicolons.Item := ⟨"é1", by decide, by simp [accepts_semicolons]⟩
  let second : semicolons.Item := ⟨" b", by decide, by simp [accepts_semicolons]⟩
  obtain ⟨hjoin, hrest, hdangling⟩ := parse_join semicolons s rfl rfl hdepth [first, second] nofun
  exact ⟨hjoin, (hrest "; " hdangling).1 rfl, (hrest ";b" hhalf).1 rfl⟩

end Separation

end OrderedChoice
