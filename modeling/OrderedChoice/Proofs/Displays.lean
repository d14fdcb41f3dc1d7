import OrderedChoice.Grammar.Rule
import OrderedChoice.Proofs.Span
import OrderedChoice.Proofs.Spelling

/-!
# Displays are not ambiguous

A symbol is displayed with the marks of its lookahead and its quantifier, and a rule as its symbols
in brackets.  `Delimits write P F` says that of a text that begins with what `write` makes of
something with `P`, and goes on in the way of `F`, there is only one such reading.  It holds of the
parts of a display and is put together from them:

* `delimits_quoteChar` and `delimits_quoteChars` for literals, whose escapes can be read back;
* `delimits_kind` for literals and references, and `Symbol.delimits_display` for their symbols;
* `Delimits.flatMap` for lists that end in a mark, which is used for the characters of a literal as
  for the symbols of a rule.

A pattern is not quoted, so that only its last slash can be told from its source, by what is at the
end of the display (`takeQuantifier_pattern`).  `display_unambiguous` puts all of this together.
-/

namespace OrderedChoice

open OrderedChoice.Symbol

/-- What is written for something with `P` is told from what follows, where this is as `F` says. -/
def Delimits {α : Type} (write : α → List Char) (P : α → Prop) (F : List Char → Prop) : Prop :=
  ∀ ⦃a b : α⦄ ⦃x y : List Char⦄, P a → P b → F x → F y → write a ++ x = write b ++ y →
    a = b ∧ x = y

/-- Things that are written one after the other are told from each other and from a mark that ends
them, if none of them begins with the mark. -/
theorem Delimits.flatMap {α : Type} {write : α → List Char} {P : α → Prop} {F : List Char → Prop}
    {mark : Char} (h : Delimits write P F)
    (hstart : ∀ a, P a → ∃ c cs, write a = c :: cs ∧ c ≠ mark)
    (hend : ∀ x, F (mark :: x)) (hnext : ∀ a x, P a → F (write a ++ x)) :
    Delimits (fun as : List α => as.flatMap write ++ [mark]) (fun as => ∀ a ∈ as, P a)
      (fun _ => True) := by
  intro as bs x y has hbs _ _ heq
  simp only [List.append_assoc, List.singleton_append] at heq
  have hmark : ∀ {a : α} {as : List α} {x y : List Char}, P a →
      (a :: as).flatMap write ++ x ≠ mark :: y := by
    intro a as x y ha heq
    obtain ⟨c, cs, hwrite, hc⟩ := hstart a ha
    rw [List.flatMap_cons, hwrite] at heq
    exact hc (List.cons.inj heq).1
  have hF : ∀ {as : List α} {x : List Char}, (∀ a ∈ as, P a) →
      F (as.flatMap write ++ mark :: x) := by
    intro as x has
    cases as with
    | nil => exact hend x
    | cons a as =>
      rw [List.flatMap_cons, List.append_assoc]
      exact hnext a _ (has a List.mem_cons_self)
  induction as generalizing bs with
  | nil =>
    cases bs with
    | nil => exact ⟨rfl, (List.cons.inj heq).2⟩
    | cons b bs => exact absurd heq.symm (hmark (hbs b List.mem_cons_self))
  | cons a as ih =>
    obtain ⟨ha, hleft⟩ := List.forall_mem_cons.1 has
    cases bs with
    | nil => exact absurd heq (hmark ha)
    | cons b bs =>
      obtain ⟨hb, hright⟩ := List.forall_mem_cons.1 hbs
      rw [List.flatMap_cons, List.flatMap_cons, List.append_assoc, List.append_assoc] at heq
      obtain ⟨rfl, hrest⟩ := h ha hb (hF hleft) (hF hright) heq
      obtain ⟨rfl, hxy⟩ := ih hleft hright hrest
      exact ⟨rfl, hxy⟩

/-- What consists of accepted characters is told from what does not begin with one. -/
theorem delimits_noHead {α : Type} {write : α → List Char} {P : α → Prop} {accepts : Char → Bool}
    (hinj : ∀ {a b}, P a → P b → write a = write b → a = b)
    (haccepts : ∀ {a c}, P a → c ∈ write a → accepts c = true) :
    Delimits write P (NoHead accepts) := by
  intro a b x y ha hb hx hy h
  obtain ⟨hwrite, hrest⟩ :=
    append_inj_of_noHead (fun _ => haccepts ha) (fun _ => haccepts hb) hx hy h
  exact ⟨hinj ha hb hwrite, hrest⟩

/-! ### Literals -/

theorem hexValue?_digitChar {d : Nat} (h : d < 16) : hexValue? (Nat.digitChar d) = some d := by
  have hall : ∀ d < 16, hexValue? (Nat.digitChar d) = some d := by decide
  exact hall d h

/-- What is written in hexadecimal is read back by the reader of escapes. -/
theorem hexNumber?_hexDigits (n : Nat) : Regex.hexNumber? (hexDigits n) = some n := by
  have hfold : (hexDigits n).foldlM (fun acc c => (hexValue? c).map (16 * acc + ·)) 0 = some n := by
    unfold hexDigits
    induction n using Nat.strongRecOn with
    | ind n ih =>
      rcases Nat.lt_or_ge n 16 with h | h
      · simp [Nat.toDigits_of_lt_base h, hexValue?_digitChar h]
      · have hd := hexValue?_digitChar (Nat.mod_lt n (by decide : 0 < 16))
        rw [Nat.toDigits_of_base_le (by decide) h, List.foldlM_append,
          ih (n / 16) (Nat.div_lt_self (by omega) (by decide))]
        simp [hd, Nat.div_add_mod]
  cases hdigits : hexDigits n with
  | nil => simp [hexDigits] at hdigits
  | cons c cs => rwa [hdigits] at hfold

theorem brace_not_mem_hexDigits (n : Nat) : '\x7d' ∉ hexDigits n := by
  intro h
  obtain ⟨d, hd, hc⟩ := exists_digitChar_of_mem_toDigits (by decide) h
  have hvalue := hexValue?_digitChar hd
  rw [← hc] at hvalue
  cases hvalue

/-- Reads one character of a literal, which may be escaped. -/
def readQuotedChar : List Char → Option (Char × List Char)
  | [] => none
  | '\\' :: '0' :: cs => some ('\x00', cs)
  | '\\' :: 't' :: cs => some ('\t', cs)
  | '\\' :: 'r' :: cs => some ('\r', cs)
  | '\\' :: 'n' :: cs => some ('\n', cs)
  | '\\' :: 'u' :: '\x7b' :: cs =>
    (splitAtChar '\x7d' cs).bind fun (digits, cs) =>
      (Regex.hexNumber? digits).map fun n => (Char.ofNat n, cs)
  | '\\' :: c :: cs => some (c, cs)
  | c :: cs => some (c, cs)

theorem readQuotedChar_quoteChar (c : Char) (cs : List Char) :
    readQuotedChar (quoteChar c ++ cs) = some (c, cs) := by
  by_cases hshort : c ∈ ['\x00', '\t', '\r', '\n', '"', '\\']
  · simp only [List.mem_cons, List.not_mem_nil, or_false] at hshort
    rcases hshort with rfl | rfl | rfl | rfl | rfl | rfl <;> rfl
  · simp only [List.mem_cons, List.not_mem_nil, or_false, not_or] at hshort
    obtain ⟨hzero, htab, hreturn, hline, hquote, hbackslash⟩ := hshort
    simp only [quoteChar, beq_iff_eq, hzero, htab, hreturn, hline, hquote, hbackslash, if_false]
    split
    · unfold readQuotedChar
      split <;> simp_all
    · simp only [List.cons_append, List.append_assoc, List.nil_append, readQuotedChar,
        splitAtChar_append cs (brace_not_mem_hexDigits c.toNat), Option.bind_some,
        hexNumber?_hexDigits, Option.map_some, Char.ofNat_toNat]

theorem delimits_quoteChar : Delimits quoteChar (fun _ => True) (fun _ => True) := by
  intro c d x y _ _ _ _ h
  have hread := readQuotedChar_quoteChar c x
  rw [h, readQuotedChar_quoteChar] at hread
  obtain ⟨rfl, rfl⟩ := Prod.mk.inj (Option.some.inj hread)
  exact ⟨rfl, rfl⟩

theorem exists_of_quoteChar (c : Char) : ∃ d cs, quoteChar c = d :: cs ∧ d ≠ '"' := by
  have hread := readQuotedChar_quoteChar c []
  rw [List.append_nil] at hread
  cases hcs : quoteChar c with
  | nil =>
    rw [hcs] at hread
    cases hread
  | cons d cs =>
    refine ⟨d, cs, rfl, ?_⟩
    -- a quote that is not escaped would be read as itself
    rintro rfl
    rw [hcs] at hread
    obtain ⟨rfl, -⟩ := Prod.mk.inj (Option.some.inj hread)
    cases hcs

/-- **The end of a literal is found**: no quote in its text is written as the one that ends it. -/
theorem delimits_quoteChars : Delimits quoteChars (fun _ => True) (fun _ => True) := by
  intro a b x y _ _ _ _ h
  have hchars := delimits_quoteChar.flatMap (fun c _ => exists_of_quoteChar c)
    (fun _ => trivial) (fun _ _ _ => trivial)
  exact hchars (fun _ _ => trivial) (fun _ _ => trivial) trivial trivial (List.cons.inj h).2

/-! ### References -/

/-- The characters that names and the colon between them consist of. -/
def isReferenceChar (c : Char) : Bool := isNameChar c || c == ':'

/-- The names of a reference as they are displayed, behind the first colon. -/
def Reference.names (r : Reference) : List Char :=
  match r.grammar with
  | some g => g.toList ++ ':' :: r.expression.toList
  | none => r.expression.toList

theorem Reference.toList_display (r : Reference) : r.display.toList = ':' :: r.names := by
  unfold Reference.display Reference.names
  cases r.grammar with
  | some g => simp
  | none => simp

theorem Reference.IsNamed.exists_spelling {r : Reference} (h : r.IsNamed) :
    ∃ w : Spelling, w.reference = r ∧ w.names = r.names := by
  obtain ⟨⟨l, g, e, q⟩, hw⟩ := Spelling.exists_of_isNamed h .one .consume
  obtain ⟨hr, -, -⟩ := Symbol.mk.inj hw
  obtain rfl := SymbolKind.reference.inj hr
  refine ⟨_, rfl, ?_⟩
  cases g with
  | some g => simp [Spelling.names, Spelling.reference, Reference.names]
  | none => simp [Spelling.names, Spelling.reference, Reference.names]

theorem Spelling.isReferenceChar_of_mem {w : Spelling} {c : Char} (h : c ∈ w.names) :
    isReferenceChar c = true := by
  have hname : ∀ n : Name, c ∈ n.chars → isReferenceChar c = true := by
    intro n hc
    rw [isReferenceChar, isNameChar_iff.2 (n.accepted c hc), Bool.true_or]
  unfold Spelling.names at h
  cases hg : w.grammar with
  | none =>
    rw [hg] at h
    exact hname _ h
  | some g =>
    rw [hg] at h
    rcases List.mem_append.1 h with h | h
    · exact hname g h
    · rcases List.mem_cons.1 h with rfl | h
      · rw [isReferenceChar, beq_self_eq_true, Bool.or_true]
      · exact hname _ h

/-- The names of a reference are told from what cannot be part of them. -/
theorem delimits_names : Delimits Reference.names Reference.IsNamed (NoHead isReferenceChar) := by
  refine delimits_noHead (fun hr hr' h => ?_) (fun hr hc => ?_)
  · obtain ⟨w, rfl, hw⟩ := hr.exists_spelling
    obtain ⟨w', rfl, hw'⟩ := hr'.exists_spelling
    have hread := w.readNames_names
    rw [hw, h, ← hw', w'.readNames_names] at hread
    exact (Option.some.inj hread).symm
  · obtain ⟨w, -, hw⟩ := hr.exists_spelling
    exact Spelling.isReferenceChar_of_mem (hw ▸ hc)

/-! ### Marks -/

/-- The marks of lookaheads. -/
def isLookaheadMark (c : Char) : Bool := c == '!' || c == '&'

/-- The marks of quantifiers. -/
def isQuantifierMark (c : Char) : Bool := c == '*' || c == '+' || c == '?'

/-- Marks that can be read back are told from what does not begin with a mark. -/
theorem delimits_mark {α : Type} {mark : α → String} {ofMark? : String → Option α}
    {accepts : Char → Bool} (hread : ∀ a, ofMark? (mark a) = some a)
    (haccepts : ∀ a, ∀ c ∈ (mark a).toList, accepts c = true) :
    Delimits (fun a => (mark a).toList) (fun _ => True) (NoHead accepts) := by
  refine delimits_noHead (fun {a b} _ _ h => ?_) (fun {a c} _ => haccepts a c)
  have hmark := congrArg ofMark? (String.toList_injective h)
  rw [hread, hread] at hmark
  exact Option.some.inj hmark

theorem delimits_lookahead :
    Delimits (fun l : Lookahead => l.mark.toList) (fun _ => True) (NoHead isLookaheadMark) := by
  refine delimits_mark Lookahead.ofMark?_mark fun l => ?_
  cases l <;> simp [Lookahead.mark, isLookaheadMark]

theorem delimits_quantifier :
    Delimits (fun q : Quantifier => q.mark.toList) (fun _ => True) (NoHead isQuantifierMark) := by
  refine delimits_mark Quantifier.ofMark?_mark fun q => ?_
  cases q <;> simp [Quantifier.mark, isQuantifierMark]

/-! ### Symbols -/

/-- The character that the display of a kind begins with. -/
def SymbolKind.opening : SymbolKind → Char
  | literal _ => '"'
  | pattern _ => '/'
  | reference _ => ':'

/-- The names in a kind, if there are any, can be written. -/
def SymbolKind.IsNamed : SymbolKind → Prop
  | reference r => r.IsNamed
  | _ => True

/-- The kind is that of patterns. -/
def SymbolKind.IsPattern (k : SymbolKind) : Prop := ∃ p, k = pattern p

theorem SymbolKind.opening_eq_slash_iff {k : SymbolKind} : k.opening = '/' ↔ k.IsPattern := by
  constructor
  · intro h
    cases k with
    | pattern p => exact ⟨p, rfl⟩
    | literal | reference => cases h
  · rintro ⟨p, rfl⟩
    rfl

theorem SymbolKind.exists_opening (k : SymbolKind) : ∃ cs, k.display.toList = k.opening :: cs := by
  cases k with
  | literal text => exact ⟨_, String.toList_ofList⟩
  | pattern p => exact ⟨p.source.toList ++ ['/'], by simp [display, opening]⟩
  | reference r => exact ⟨_, r.toList_display⟩

/-- Displays that begin alike have the same opening. -/
theorem SymbolKind.opening_eq {k k' : SymbolKind} {x y : List Char}
    (h : k.display.toList ++ x = k'.display.toList ++ y) : k.opening = k'.opening := by
  obtain ⟨cs, hcs⟩ := k.exists_opening
  obtain ⟨ds, hds⟩ := k'.exists_opening
  rw [hcs, hds] at h
  exact (List.cons.inj h).1

/-- Literals and references are told from what cannot be part of a name. -/
theorem delimits_kind : Delimits (fun k : SymbolKind => k.display.toList)
    (fun k => k.IsNamed ∧ ¬ k.IsPattern) (NoHead isReferenceChar) := by
  intro k k' x y hk hk' hx hy h
  have hopening : k.opening = k'.opening := SymbolKind.opening_eq h
  cases k with
  | pattern p => exact absurd ⟨p, rfl⟩ hk.2
  | literal text =>
    cases k' with
    | pattern p => exact absurd ⟨p, rfl⟩ hk'.2
    | reference r => cases hopening
    | literal text' =>
      simp only [SymbolKind.display, quoted, String.toList_ofList] at h
      obtain ⟨htext, hrest⟩ := delimits_quoteChars trivial trivial trivial trivial h
      exact ⟨congrArg _ (String.toList_injective htext), hrest⟩
  | reference r =>
    cases k' with
    | pattern p => exact absurd ⟨p, rfl⟩ hk'.2
    | literal text => cases hopening
    | reference r' =>
      simp only [SymbolKind.display, Reference.toList_display] at h
      obtain ⟨rfl, hrest⟩ := delimits_names hk.1 hk'.1 hx hy (List.cons.inj h).2
      exact ⟨rfl, hrest⟩

theorem Symbol.toList_display (x : Symbol) : x.display.toList =
    x.lookahead.mark.toList ++ (x.kind.display.toList ++ x.quantifier.mark.toList) := by
  simp [Symbol.display]

theorem noHead_kind (k : SymbolKind) (cs : List Char) :
    NoHead isLookaheadMark (k.display.toList ++ cs) := by
  obtain ⟨ds, hds⟩ := k.exists_opening
  rw [hds]
  refine noHead_cons.2 ?_
  cases k <;> rfl

/-- What may follow a symbol: no character that could be part of a name, and no mark. -/
structure FollowsSymbol (cs : List Char) : Prop where
  noName : NoHead isReferenceChar cs
  noMark : NoHead isQuantifierMark cs

theorem followsSymbol_nil : FollowsSymbol [] := ⟨noHead_nil _, noHead_nil _⟩

section

set_option maxRecDepth 4000

theorem followsSymbol_comma (cs : List Char) : FollowsSymbol (',' :: cs) :=
  ⟨noHead_cons.2 (by decide), noHead_cons.2 (by decide)⟩

theorem followsSymbol_bracket (cs : List Char) : FollowsSymbol (']' :: cs) :=
  ⟨noHead_cons.2 (by decide), noHead_cons.2 (by decide)⟩

theorem noHead_quantifier (q : Quantifier) {cs : List Char} (h : FollowsSymbol cs) :
    NoHead isReferenceChar (q.mark.toList ++ cs) := by
  cases q with
  | one => exact h.noName
  | zeroOrMore | oneOrMore | optional => exact noHead_cons.2 (by decide)

end

/-- **A symbol that is not a pattern is told from what follows it.** -/
theorem Symbol.delimits_display : Delimits (fun x : Symbol => x.display.toList)
    (fun x => x.kind.IsNamed ∧ ¬ x.kind.IsPattern) FollowsSymbol := by
  rintro ⟨k, q, l⟩ ⟨k', q', l'⟩ cs ds hx hx' hcs hds h
  simp only [Symbol.toList_display, List.append_assoc] at h
  obtain ⟨hl, h⟩ := delimits_lookahead trivial trivial (noHead_kind k _) (noHead_kind k' _) h
  obtain ⟨hk, h⟩ := delimits_kind hx hx' (noHead_quantifier q hcs) (noHead_quantifier q' hds) h
  obtain ⟨hq, h⟩ := delimits_quantifier trivial trivial hcs.noMark hds.noMark h
  exact ⟨(Symbol.mk.injEq ..).mpr ⟨hk, hq, hl⟩, h⟩

/-- A pattern with a quantifier is taken apart at its end, where the last slash is. -/
theorem takeQuantifier_pattern (p : Pattern) (q : Quantifier) :
    takeQuantifier ((SymbolKind.pattern p).display.toList ++ q.mark.toList) =
      ((SymbolKind.pattern p).display.toList, q) := by
  have hdisplay : (SymbolKind.pattern p).display.toList = '/' :: p.source.toList ++ ['/'] := by
    simp [SymbolKind.display]
  rw [hdisplay]
  exact takeQuantifier_append (by decide) q

/-- **Symbols with the same display are the same.** -/
theorem Symbol.eq_of_display {x y : Symbol} (hx : x.kind.IsNamed) (hy : y.kind.IsNamed)
    (h : x.display = y.display) : x = y := by
  have hdisplay := congrArg String.toList h
  rw [toList_display, toList_display] at hdisplay
  obtain ⟨hl, hrest⟩ := delimits_lookahead trivial trivial (noHead_kind x.kind _)
    (noHead_kind y.kind _) hdisplay
  have hopening : x.kind.opening = y.kind.opening := SymbolKind.opening_eq hrest
  by_cases hpattern : x.kind.IsPattern
  · obtain ⟨p, hp⟩ := hpattern
    obtain ⟨p', hp'⟩ : y.kind.IsPattern := by
      rw [← SymbolKind.opening_eq_slash_iff, ← hopening, hp]
      rfl
    have htake := takeQuantifier_pattern p x.quantifier
    rw [← hp, hrest, hp', takeQuantifier_pattern] at htake
    obtain ⟨hkind, hq⟩ := Prod.mk.inj htake
    have hsource : p'.source.toList = p.source.toList := by
      simpa [hp, SymbolKind.display] using hkind
    obtain rfl := ClassPattern.ext_source (String.toList_injective hsource)
    exact (Symbol.mk.injEq ..).mpr ⟨hp.trans hp'.symm, hq.symm, hl⟩
  · have hpattern' : ¬ y.kind.IsPattern := by
      rwa [← SymbolKind.opening_eq_slash_iff, ← hopening, SymbolKind.opening_eq_slash_iff]
    refine (delimits_display ⟨hx, hpattern⟩ ⟨hy, hpattern'⟩ followsSymbol_nil
      followsSymbol_nil ?_).1
    exact congrArg (fun s : String => s.toList ++ []) h

/-! ### Rules -/

/-- What stands in a rule behind a symbol and the symbols before it. -/
def nextDisplay (x : Symbol) : List Char := ", ".toList ++ x.display.toList

theorem toList_displaySymbols_cons (x : Symbol) (xs : List Symbol) :
    (Rule.displaySymbols (x :: xs)).toList =
      '[' :: (x.display.toList ++ (xs.flatMap nextDisplay ++ [']'])) := by
  rw [Rule.displaySymbols, List.map_cons, String.toList_append, String.toList_append,
    toList_intercalate_cons, List.flatMap_map, List.append_assoc, List.append_assoc]
  rfl

theorem delimits_nextDisplays :
    Delimits (fun xs : List Symbol => xs.flatMap nextDisplay ++ [']'])
      (fun xs => ∀ x ∈ xs, x.kind.IsNamed ∧ ¬ x.kind.IsPattern) (fun _ => True) := by
  have hnext : Delimits nextDisplay (fun x => x.kind.IsNamed ∧ ¬ x.kind.IsPattern)
      FollowsSymbol := by
    intro x y cs ds hx hy hcs hds h
    rw [nextDisplay, nextDisplay, List.append_assoc, List.append_assoc] at h
    exact Symbol.delimits_display hx hy hcs hds (List.append_cancel_left h)
  exact hnext.flatMap (fun x _ => ⟨',', _, rfl, by decide⟩) followsSymbol_bracket
    fun x cs _ => followsSymbol_comma _

/-- What follows a symbol in a rule. -/
theorem followsSymbol_next (xs : List Symbol) :
    FollowsSymbol (xs.flatMap nextDisplay ++ [']']) := by
  cases xs with
  | nil => exact followsSymbol_bracket []
  | cons x xs => exact followsSymbol_comma _

theorem displaySymbols_cons_ne_nil (x : Symbol) (xs : List Symbol) :
    Rule.displaySymbols (x :: xs) ≠ Rule.displaySymbols [] := by
  intro h
  have hlist := congrArg String.toList h
  rw [toList_displaySymbols_cons, Symbol.toList_display] at hlist
  obtain ⟨cs, hcs⟩ := x.kind.exists_opening
  have hnil : (Rule.displaySymbols []).toList = ['[', ']'] := rfl
  rw [hcs, hnil] at hlist
  -- the opening of a kind is one character more than there are without symbols
  have hlength := congrArg List.length hlist
  simp only [List.length_cons, List.length_append, List.length_nil] at hlength
  omega

/-- **Lists of symbols with the same display are the same**, if there are no patterns in them. -/
theorem Rule.eq_of_displaySymbols {xs ys : List Symbol}
    (hxs : ∀ x ∈ xs, x.kind.IsNamed ∧ ¬ x.kind.IsPattern)
    (hys : ∀ y ∈ ys, y.kind.IsNamed ∧ ¬ y.kind.IsPattern)
    (h : displaySymbols xs = displaySymbols ys) : xs = ys := by
  cases xs with
  | nil =>
    cases ys with
    | nil => rfl
    | cons y ys => exact absurd h.symm (displaySymbols_cons_ne_nil y ys)
  | cons x xs =>
    cases ys with
    | nil => exact absurd h (displaySymbols_cons_ne_nil x xs)
    | cons y ys =>
      obtain ⟨hx, hxs⟩ := List.forall_mem_cons.1 hxs
      obtain ⟨hy, hys⟩ := List.forall_mem_cons.1 hys
      have hlist := congrArg String.toList h
      rw [toList_displaySymbols_cons, toList_displaySymbols_cons] at hlist
      obtain ⟨hxy, hrest⟩ := Symbol.delimits_display hx hy (followsSymbol_next xs)
        (followsSymbol_next ys) (List.cons.inj hlist).2
      have htail := delimits_nextDisplays hxs hys trivial trivial (congrArg (· ++ []) hrest)
      rw [hxy, htail.1]

/-- **No display is ambiguous.**  Symbols with the same display are the same, whatever their kinds,
their marks and their texts are, as long as names can be written; and rules with the same display
have the same symbols, if moreover no symbol is a pattern. -/
theorem display_unambiguous {τ : Type} :
    (∀ x y : Symbol, x.kind.IsNamed → y.kind.IsNamed → x.display = y.display → x = y) ∧
    ∀ a b : Rule τ, (∀ x ∈ a.symbols ++ b.symbols, x.kind.IsNamed ∧ ¬ x.kind.IsPattern) →
      a.display = b.display → a.symbols = b.symbols := by
  refine ⟨fun x y hx hy h => Symbol.eq_of_display hx hy h, fun a b hsymbols h => ?_⟩
  obtain ⟨ha, hb⟩ := List.forall_mem_append.1 hsymbols
  exact Rule.eq_of_displaySymbols ha hb h

/-- A literal that holds the text between two others is not taken for them. -/
theorem display_unambiguous_quotes :
    (Rule.mk [.literal "a", .literal "!b]"] none : Rule Empty).display ≠
      (Rule.mk [.literal "a\", \"!b]"] none : Rule Empty).display := by
  intro h
  have hplain : ∀ x ∈ [Symbol.literal "a", .literal "!b]"] ++ [.literal "a\", \"!b]"],
      x.kind.IsNamed ∧ ¬ x.kind.IsPattern := by
    simp [Symbol.literal, Symbol.ofKind, SymbolKind.IsNamed, SymbolKind.IsPattern]
  have hsame := congrArg List.length (display_unambiguous.2 _ _ hplain h)
  cases hsame

/-- In a rule the source of a pattern may well be taken for more than one. -/
example :
    let one : Pattern := ⟨"a", _, rfl⟩
    let other : Pattern := ⟨"b", _, rfl⟩
    let both : Pattern := ⟨"a/, /b", _, rfl⟩
    Rule.displaySymbols [.ofKind (.pattern one), .ofKind (.pattern other)] =
      Rule.displaySymbols [.ofKind (.pattern both)] := by decide

end OrderedChoice
