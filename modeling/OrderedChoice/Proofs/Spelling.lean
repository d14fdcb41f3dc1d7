import OrderedChoice.Grammar.Reading

/-!
# How references are written

A `Spelling` is a reference as it is written: the mark of a lookahead, a colon, the names of a
grammar and of an expression with a colon between, and the mark of a quantifier.  The marks and the
name of the grammar may be missing.

* `Spelling.readReference_text`: the reader takes a spelling apart into its parts, so no text has
  two spellings (`Spelling.text_injective`);
* `Spelling.exists_of_readReference`: what the reader takes for a reference has a spelling;
* `Spelling.display_symbol`: the printer writes a symbol as it is spelled;
* `ofString_spelling` says what follows for all texts, and for all symbols.
-/

namespace OrderedChoice

/-- A text that may stand for a name: letters, numbers, underscores and hyphens. -/
structure Name where
  chars : List Char
  ne_nil : chars ≠ []
  accepted : ∀ c ∈ chars, Unicode.isAlphanumeric c = true ∨ c = '_' ∨ c = '-'

/-- A reference as it is written. -/
structure Spelling where
  lookahead : Lookahead
  grammar : Option Name
  expression : Name
  quantifier : Quantifier

/-- The names in a reference can be written. -/
def Reference.IsNamed (r : Reference) : Prop :=
  (∀ g, r.grammar = some g → ∃ n : Name, n.chars = g.toList) ∧
    ∃ n : Name, n.chars = r.expression.toList

namespace Spelling

/-- The names, with a colon between. -/
def names (w : Spelling) : List Char :=
  match w.grammar with
  | some g => g.chars ++ ':' :: w.expression.chars
  | none => w.expression.chars

/-- All that is written. -/
def text (w : Spelling) : List Char :=
  w.lookahead.mark.toList ++ ':' :: (w.names ++ w.quantifier.mark.toList)

/-- The names as they stand in a symbol. -/
def reference (w : Spelling) : Reference :=
  ⟨w.grammar.map fun g => String.ofList g.chars, String.ofList w.expression.chars⟩

/-- The symbol that is meant. -/
def symbol (w : Spelling) : Symbol := ⟨.reference w.reference, w.quantifier, w.lookahead⟩

end Spelling

open OrderedChoice.Symbol

/-! ### Names -/

theorem isNameChar_iff {c : Char} :
    isNameChar c = true ↔ Unicode.isAlphanumeric c = true ∨ c = '_' ∨ c = '-' := by
  simp only [isNameChar, Bool.or_eq_true, beq_iff_eq, or_assoc]

section

set_option maxRecDepth 4000

/-- Colons and the marks of quantifiers do not occur in names. -/
theorem isNameChar_mark {c : Char} (h : c ∈ [':', '*', '+', '?']) : isNameChar c = false := by
  simp only [List.mem_cons, List.not_mem_nil, or_false] at h
  rcases h with rfl | rfl | rfl | rfl <;> decide

end

namespace Name

theorem ext_chars {m n : Name} (h : m.chars = n.chars) : m = n := by
  cases m
  cases n
  cases h
  rfl

theorem isName_iff {cs : List Char} : isName cs = true ↔ ∃ n : Name, n.chars = cs := by
  simp only [isName, Bool.and_eq_true, Bool.not_eq_true', List.isEmpty_eq_false_iff,
    List.all_eq_true, isNameChar_iff]
  constructor
  · rintro ⟨hne, hcs⟩
    exact ⟨⟨cs, hne, hcs⟩, rfl⟩
  · rintro ⟨⟨_, hne, hcs⟩, rfl⟩
    exact ⟨hne, hcs⟩

variable (n : Name)

theorem isName_chars : isName n.chars = true := isName_iff.2 ⟨n, rfl⟩

theorem mark_not_mem {c : Char} (h : c ∈ [':', '*', '+', '?']) : c ∉ n.chars := by
  intro hc
  have hname := isNameChar_iff.2 (n.accepted c hc)
  rw [isNameChar_mark h] at hname
  cases hname

theorem colon_not_mem : ':' ∉ n.chars := n.mark_not_mem (by decide)

end Name

/-! ### Marks -/

theorem takeLookahead_mark (l : Lookahead) (cs : List Char) :
    takeLookahead (l.mark.toList ++ ':' :: cs) = (l, ':' :: cs) := by
  cases l <;> rfl

/-- Taking a lookahead off loses nothing. -/
theorem eq_of_takeLookahead {cs r : List Char} {l : Lookahead} (h : takeLookahead cs = (l, r)) :
    cs = l.mark.toList ++ r := by
  unfold takeLookahead at h
  split at h <;> cases h <;> rfl

/-- A text that does not end in a mark has no quantifier to be taken off. -/
theorem takeQuantifier_unmarked {init : List Char} {last : Char} (h : last ∉ ['*', '+', '?']) :
    takeQuantifier (init ++ [last]) = (init ++ [last], .one) := by
  simp only [List.mem_cons, List.not_mem_nil, or_false, not_or] at h
  obtain ⟨hstar, hplus, hquestion⟩ := h
  unfold takeQuantifier
  rw [splitLast_concat]
  split
  · rename_i heq
    cases heq
    exact absurd rfl hstar
  · rename_i heq
    cases heq
    exact absurd rfl hplus
  · rename_i heq
    cases heq
    exact absurd rfl hquestion
  · rfl

/-- A quantifier is taken off the end of any text. -/
theorem takeQuantifier_marked {q : Quantifier} (hq : q ≠ .one) (body : List Char) :
    takeQuantifier (body ++ q.mark.toList) = (body, q) := by
  cases q with
  | one => exact absurd rfl hq
  | zeroOrMore =>
    change takeQuantifier (body ++ ['*']) = _
    simp only [takeQuantifier, splitLast_concat]
  | oneOrMore =>
    change takeQuantifier (body ++ ['+']) = _
    simp only [takeQuantifier, splitLast_concat]
  | optional =>
    change takeQuantifier (body ++ ['?']) = _
    simp only [takeQuantifier, splitLast_concat]

/-- A quantifier is taken off what is written with it, if this does not end in a mark. -/
theorem takeQuantifier_append {init : List Char} {last : Char} (h : last ∉ ['*', '+', '?'])
    (q : Quantifier) :
    takeQuantifier (init ++ [last] ++ q.mark.toList) = (init ++ [last], q) := by
  by_cases hq : q = .one
  · rw [hq]
    exact (congrArg takeQuantifier (List.append_nil _)).trans (takeQuantifier_unmarked h)
  · exact takeQuantifier_marked hq _

/-- Taking a quantifier off loses nothing. -/
theorem eq_of_takeQuantifier {cs body : List Char} {q : Quantifier}
    (h : takeQuantifier cs = (body, q)) : cs = body ++ q.mark.toList := by
  unfold takeQuantifier at h
  split at h
  · rename_i hl
    cases h
    exact eq_of_splitLast hl
  · rename_i hl
    cases h
    exact eq_of_splitLast hl
  · rename_i hl
    cases h
    exact eq_of_splitLast hl
  · cases h
    exact (List.append_nil _).symm

namespace Spelling

/-! ### What is written is read -/

variable (w : Spelling)

/-- The names end in a character of the name of the expression. -/
theorem exists_last : ∃ init last, w.names = init ++ [last] ∧ last ∈ w.expression.chars := by
  have hlast := List.dropLast_concat_getLast w.expression.ne_nil
  have hmem := List.getLast_mem w.expression.ne_nil
  unfold names
  cases w.grammar with
  | some g =>
    refine ⟨g.chars ++ ':' :: w.expression.chars.dropLast, _, ?_, hmem⟩
    rw [List.append_assoc, List.cons_append, hlast]
  | none => exact ⟨w.expression.chars.dropLast, _, hlast.symm, hmem⟩

theorem takeQuantifier_names :
    takeQuantifier (w.names ++ w.quantifier.mark.toList) = (w.names, w.quantifier) := by
  obtain ⟨init, last, hnames, hlast⟩ := w.exists_last
  have hmark : last ∉ ['*', '+', '?'] := fun h =>
    w.expression.mark_not_mem (List.mem_cons_of_mem ':' h) hlast
  rw [hnames]
  exact takeQuantifier_append hmark w.quantifier

theorem readNames_names : readNames w.names = some w.reference := by
  unfold names reference readNames
  cases w.grammar with
  | some g =>
    simp only [splitAtChar_append w.expression.chars g.colon_not_mem, g.isName_chars,
      w.expression.isName_chars, Bool.and_self, ↓reduceIte, Option.map_some]
  | none =>
    simp only [splitAtChar_of_not_mem w.expression.colon_not_mem, w.expression.isName_chars,
      ↓reduceIte, Option.map_none]

/-- **A spelling is taken apart into its parts.** -/
theorem readReference_text : readReference w.text = some w.symbol := by
  unfold readReference text
  rw [takeLookahead_mark]
  simp only [takeQuantifier_names, readNames_names, Option.map_some]
  rfl

/-- No text has two spellings. -/
theorem text_injective {w w' : Spelling} (h : w.text = w'.text) : w = w' := by
  have hs : w.symbol = w'.symbol := by
    have hr := w.readReference_text
    rw [h, w'.readReference_text] at hr
    exact (Option.some.inj hr).symm
  obtain ⟨l, g, e, q⟩ := w
  obtain ⟨l', g', e', q'⟩ := w'
  simp only [symbol, reference, Symbol.mk.injEq, SymbolKind.reference.injEq,
    Reference.mk.injEq] at hs
  obtain ⟨⟨hg, he⟩, rfl, rfl⟩ := hs
  have hgrammar : g = g' :=
    Option.map_injective (fun _ _ hmn => Name.ext_chars (String.ofList_injective hmn)) hg
  rw [hgrammar, Name.ext_chars (String.ofList_injective he)]

/-- The printer writes a symbol as it is spelled. -/
theorem display_symbol : w.symbol.display = String.ofList w.text := by
  apply String.toList_injective
  obtain ⟨l, g, e, q⟩ := w
  cases g with
  | some g =>
    simp [symbol, reference, Symbol.display, SymbolKind.display, Reference.display, text, names]
  | none =>
    simp [symbol, reference, Symbol.display, SymbolKind.display, Reference.display, text, names]

/-! ### What is read has been written -/

theorem exists_of_readNames {cs : List Char} {r : Reference} (h : readNames cs = some r)
    (l : Lookahead) (q : Quantifier) :
    ∃ w : Spelling, w.names = cs ∧ w.reference = r ∧ w.lookahead = l ∧ w.quantifier = q := by
  unfold readNames at h
  split at h
  · split at h
    · rename_i hname
      obtain ⟨n, rfl⟩ := Name.isName_iff.1 hname
      cases h
      exact ⟨⟨l, none, n, q⟩, rfl, rfl, rfl, rfl⟩
    · cases h
  · rename_i g e hsplit
    split at h
    · rename_i hnames
      obtain ⟨hg, he⟩ := (Bool.and_eq_true _ _).mp hnames
      obtain ⟨m, rfl⟩ := Name.isName_iff.1 hg
      obtain ⟨n, rfl⟩ := Name.isName_iff.1 he
      cases h
      exact ⟨⟨l, some m, n, q⟩, (eq_of_splitAtChar hsplit).1.symm, rfl, rfl, rfl⟩
    · cases h

/-- **What is read as a reference is the symbol of a spelling.** -/
theorem exists_of_readReference {cs : List Char} {x : Symbol} (h : readReference cs = some x) :
    ∃ w : Spelling, w.text = cs ∧ w.symbol = x := by
  unfold readReference at h
  split at h
  · rename_i l r hl
    cases hq : takeQuantifier r with
    | mk body q =>
      rw [hq] at h
      obtain ⟨ref, href, rfl⟩ := Option.map_eq_some_iff.1 h
      obtain ⟨w, hnames, rfl, rfl, rfl⟩ := exists_of_readNames href l q
      refine ⟨w, ?_, rfl⟩
      rw [eq_of_takeLookahead hl, eq_of_takeQuantifier hq, text, hnames]
  · cases h

/-- A reference with names that can be written has a spelling, whatever its marks. -/
theorem exists_of_isNamed {r : Reference} (h : r.IsNamed) (q : Quantifier) (l : Lookahead) :
    ∃ w : Spelling, w.symbol = ⟨.reference r, q, l⟩ := by
  obtain ⟨g, e⟩ := r
  obtain ⟨hg, n, hn⟩ := h
  have he : String.ofList n.chars = e := by rw [hn, String.ofList_toList]
  cases g with
  | none => exact ⟨⟨l, none, n, q⟩, by simp only [symbol, reference, he, Option.map_none]⟩
  | some g =>
    obtain ⟨m, hm⟩ := hg g rfl
    have hg : String.ofList m.chars = g := by rw [hm, String.ofList_toList]
    exact ⟨⟨l, some m, n, q⟩, by simp only [symbol, reference, he, hg, Option.map_some]⟩

end Spelling

/-! ### Texts and symbols -/

theorem ofString_text {w : Spelling} {s : String} (h : w.text = s.toList) :
    ofString s = w.symbol := by
  rw [ofString, ← h, w.readReference_text]
  rfl

theorem ofString_of_not_spelled {s : String} (h : ¬ ∃ w : Spelling, w.text = s.toList) :
    ofString s = literal s := by
  unfold ofString
  cases hr : readReference s.toList with
  | none => rfl
  | some x =>
    obtain ⟨w, hw, -⟩ := Spelling.exists_of_readReference hr
    exact absurd ⟨w, hw⟩ h

/-- **References are read as they are written, and written as they are read.**  A text is read as a
reference if and only if it has a spelling, of which there is then one; the symbol has its parts and
is displayed as the text.  All other texts are literals.  And each reference whose names can be
written is read from its display. -/
theorem ofString_spelling :
    (∀ s : String,
      ((∃ r, (ofString s).kind = .reference r) ↔ ∃ w : Spelling, w.text = s.toList) ∧
      (∀ w : Spelling, w.text = s.toList →
        (∀ w' : Spelling, w'.text = s.toList → w' = w) ∧
        ofString s = ⟨.reference ⟨w.grammar.map fun g => String.ofList g.chars,
          String.ofList w.expression.chars⟩, w.quantifier, w.lookahead⟩ ∧
        (ofString s).display = s) ∧
      ((¬ ∃ w : Spelling, w.text = s.toList) → ofString s = ⟨.literal s, .one, .consume⟩)) ∧
    ∀ (x : Symbol) (r : Reference), x.kind = .reference r → r.IsNamed →
      ofString x.display = x := by
  refine ⟨fun s => ⟨⟨?_, ?_⟩, ?_, ofString_of_not_spelled⟩, ?_⟩
  · rintro ⟨r, hr⟩
    refine Classical.byContradiction fun hno => ?_
    rw [ofString_of_not_spelled hno] at hr
    cases hr
  · rintro ⟨w, hw⟩
    exact ⟨w.reference, by rw [ofString_text hw]; rfl⟩
  · intro w hw
    refine ⟨fun w' hw' => Spelling.text_injective (hw'.trans hw.symm), ofString_text hw, ?_⟩
    rw [ofString_text hw, w.display_symbol, hw, String.ofList_toList]
  · rintro ⟨_, q, l⟩ r rfl hr
    obtain ⟨w, hw⟩ := Spelling.exists_of_isNamed hr q l
    rw [← hw, w.display_symbol]
    exact ofString_text (String.toList_ofList).symm

section

set_option maxRecDepth 4000

/-- A third name, an empty name or a mark inside a name makes a literal. -/
example : ofString ":a:b:c" = literal ":a:b:c" ∧ ofString "!:" = literal "!:" ∧
    ofString ":a+b" = literal ":a+b" := ⟨rfl, rfl, rfl⟩

example : ofString "&:ops:add-op+" = ⟨.reference ⟨some "ops", "add-op"⟩, .oneOrMore, .lenient⟩ :=
  rfl

end

end OrderedChoice
