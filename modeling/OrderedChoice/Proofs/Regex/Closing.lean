import OrderedChoice.Proofs.Regex.Remainder

/-!
# Readers before a closing

A class is put in a group, so the readers of its parts see `closing` behind it.  What they read
there before the closing, they would read too if the class stood alone (`StaysBefore`).  Only where
the closing itself has been read nothing is said; then at most its anchor is left.

* `staysBefore_skip` for blanks, `staysBefore_of_readEscape` for escapes; a boundary before a brace
  is the one case where the closing is looked at without being read (`Dangles`);
* `staysBefore_of_readBracket` for bracket classes.
-/

namespace OrderedChoice.Regex

variable {d : Dialect} {f : Flags}

/-- What is put behind a class: the end of its group, and an anchor. -/
def closing : List Char := [')', '$']

/-- What is left ends in the closing, and `P` holds of what is before it; or the closing, at least
its parenthesis, has been read too. -/
def StaysBefore (out : List Char) (P : List Char → Prop) : Prop :=
  (∃ rest, out = rest ++ closing ∧ P rest) ∨ out <:+ ['$']

namespace StaysBefore

variable {out out' : List Char} {P Q : List Char → Prop}

theorem intro (rest : List Char) (h : P rest) : StaysBefore (rest ++ closing) P :=
  .inl ⟨rest, rfl, h⟩

theorem imp (h : StaysBefore out P) (hPQ : ∀ rest, P rest → Q rest) : StaysBefore out Q := by
  obtain ⟨rest, hout, hrest⟩ | h := h
  · exact .inl ⟨rest, hout, hPQ rest hrest⟩
  · exact .inr h

/-- Once the closing has been read, it stays so. -/
theorem bind (h : StaysBefore out P) (hout : out' <:+ out)
    (hnext : ∀ rest, out = rest ++ closing → P rest → StaysBefore out' Q) : StaysBefore out' Q := by
  obtain ⟨rest, hrest, hP⟩ | h := h
  · exact hnext rest hrest hP
  · exact .inr (hout.trans h)

/-- The first character that is left is before the closing or belongs to it. -/
theorem tail {c : Char} {r : List Char} (h : StaysBefore (c :: r) P) :
    StaysBefore r fun rest => P (c :: rest) := by
  obtain ⟨rest, hrest, hP⟩ | h := h
  · cases rest with
    | nil =>
      cases hrest
      exact .inr List.suffix_rfl
    | cons d rest =>
      cases hrest
      exact .inl ⟨rest, rfl, hP⟩
  · exact .inr ((List.suffix_cons c r).trans h)

end StaysBefore

theorem suffix_of_behind_closing {rest : List Char} (h : IsBehind rest closing) : rest <:+ ['$'] :=
  h.suffix_of_cons

/-! ### Blanks -/

theorem isWhiteSpace_closing : Unicode.isWhiteSpace ')' = false := by decide

theorem dropBlanks_closing (b : Bool) (cs : List Char) :
    dropBlanks b (cs ++ closing) = dropBlanks b cs ++ closing ∨
      dropBlanks b (cs ++ closing) = [] := by
  induction cs generalizing b with
  | nil => cases b <;> decide
  | cons c cs ih =>
    cases b with
    | true => exact ih (c != '\n')
    | false =>
      rw [List.cons_append, dropBlanks, dropBlanks]
      split_ifs
      · exact ih false
      · exact ih true
      · exact .inl rfl

/-- A comment may hide the closing, but then nothing is left. -/
theorem skip_closing (f : Flags) (cs : List Char) :
    f.skip (cs ++ closing) = f.skip cs ++ closing ∨ f.skip (cs ++ closing) = [] := by
  unfold Flags.skip
  split_ifs
  · exact dropBlanks_closing false cs
  · exact .inl rfl

theorem staysBefore_skip (f : Flags) (cs : List Char) :
    StaysBefore (f.skip (cs ++ closing)) fun rest => f.skip cs = rest := by
  rcases skip_closing f cs with h | h
  · rw [h]
    exact .intro _ rfl
  · rw [h]
    exact .inr List.nil_suffix

theorem staysBefore_of_skip {cs r : List Char} {c : Char} (h : f.skip (cs ++ closing) = c :: r) :
    StaysBefore r fun rest => f.skip cs = c :: rest :=
  (h ▸ staysBefore_skip f cs).tail

/-! ### Escapes -/

theorem staysBefore_of_readHexDigits {n acc v : Nat} {cs out : List Char}
    (h : readHexDigits f n acc (cs ++ closing) = some (v, out)) :
    StaysBefore out fun rest => readHexDigits f n acc cs = some (v, rest) := by
  induction n generalizing acc cs with
  | zero =>
    cases h
    exact .intro _ rfl
  | succ n ih =>
    cases cs with
    | nil => simp [closing, readHexDigits, show hexValue? ')' = none by decide] at h
    | cons c r =>
      simp only [List.cons_append, readHexDigits] at h ⊢
      cases hd : hexValue? c with
      | none => simp [hd] at h
      | some d =>
        simp only [hd] at h ⊢
        refine (staysBefore_skip f r).bind (suffix_of_readHexDigits h) fun rest hrest hskip => ?_
        rw [hrest] at h
        rw [hskip]
        exact ih h

theorem staysBefore_of_readBraced {n : Nat} {cs name out : List Char}
    (h : readBraced f n (cs ++ closing) = some (name, out)) :
    StaysBefore out fun rest => ∀ m, cs.length < m → readBraced f m cs = some (name, rest) := by
  induction n generalizing cs name with
  | zero => simp [readBraced] at h
  | succ n ih =>
    rw [readBraced] at h
    split at h
    · cases h
    · rename_i r hs
      cases h
      refine (staysBefore_of_skip hs).imp fun rest hrest m hm => ?_
      obtain ⟨m, rfl⟩ := Nat.exists_eq_add_one_of_ne_zero (Nat.ne_zero_of_lt hm)
      simp [readBraced, hrest]
    · rename_i c r hc hs
      obtain ⟨⟨name', out'⟩, hr, heq⟩ := Option.map_eq_some_iff.1 h
      cases heq
      refine (staysBefore_of_skip hs).bind (suffix_of_readBraced hr) fun rest hrest hskip => ?_
      rw [hrest] at hr
      refine (ih hr).imp fun rest' hrest' m hm => ?_
      obtain ⟨m, rfl⟩ := Nat.exists_eq_add_one_of_ne_zero (Nat.ne_zero_of_lt hm)
      have hlt := (isBehind_of_skip hskip).length_lt
      simp [readBraced, hskip, hrest' m (by omega)]

theorem staysBefore_of_readCodePoint {n : Nat} (hn : 0 < n) {cs out : List Char} {p : Primitive}
    (h : readCodePoint f n (cs ++ closing) = some (p, out)) :
    StaysBefore out fun rest => readCodePoint f n cs = some (p, rest) := by
  have hout := suffix_of_readCodePoint h
  unfold readCodePoint at h
  split at h
  · cases h
  · rename_i r hs
    split at h
    · rename_i name mid hr
      obtain ⟨c, hc, heq⟩ := Option.map_eq_some_iff.1 h
      cases heq
      refine (staysBefore_of_skip hs).bind ((skip_suffix f mid).trans (suffix_of_readBraced hr))
        fun rest hrest hskip => ?_
      rw [hrest] at hr
      refine (staysBefore_of_readBraced hr).bind (skip_suffix f mid) fun mid' hmid hread => ?_
      rw [hmid]
      refine (staysBefore_skip f mid').imp fun rest' hrest' => ?_
      simp [readCodePoint, hskip, hread _ (Nat.lt_succ_self _), hc, hrest']
    · cases h
  · rename_i hs hbrace
    split at h
    · rename_i v mid hr
      obtain ⟨c, hc, heq⟩ := Option.map_eq_some_iff.1 h
      cases heq
      refine (staysBefore_skip f cs).bind (suffix_of_readHexDigits hr) fun rest hrest hskip => ?_
      rw [hrest] at hr hs hbrace
      refine (staysBefore_of_readHexDigits hr).imp fun rest' hrest' => ?_
      unfold readCodePoint
      rw [hskip]
      split
      · obtain ⟨n, rfl⟩ := Nat.exists_eq_add_one_of_ne_zero (Nat.ne_of_gt hn)
        cases hrest'
      · exact absurd rfl (hbrace _)
      · simp [hrest', hc]
    · cases h

theorem staysBefore_of_readProperty {b : Bool} {cs out : List Char} {p : Primitive}
    (h : readProperty d f b (cs ++ closing) = some (p, out)) :
    StaysBefore out fun rest => readProperty d f b cs = some (p, rest) := by
  simp only [readProperty] at h
  split at h
  · rename_i prop mid hfound
    split at h
    · rename_i hunicode
      obtain ⟨s, hs', heq⟩ := Option.map_eq_some_iff.1 h
      cases heq
      split at hfound
      · cases hfound
      · rename_i hs
        split at hfound
        · rename_i hr
          obtain ⟨s, hname, heq⟩ := Option.map_eq_some_iff.1 hfound
          cases heq
          refine (staysBefore_of_skip hs).bind (suffix_of_readBraced hr) fun rest hrest hskip => ?_
          rw [hrest] at hr
          refine (staysBefore_of_readBraced hr).imp fun rest' hread => ?_
          simp [readProperty, hskip, hread _ (Nat.lt_succ_self _), hname, hunicode, hs']
        · cases hfound
      · rename_i c r hbrace hs
        split at hfound
        · cases hfound
        · rename_i hc
          obtain ⟨s, hname, heq⟩ := Option.map_eq_some_iff.1 hfound
          cases heq
          refine (staysBefore_of_skip hs).imp fun rest hskip => ?_
          simp [readProperty, hskip, hc, hname, hunicode, hs']
    · cases h
  · cases h

theorem staysBefore_of_readBoundaryName {n : Nat} {cs name out : List Char}
    (h : readBoundaryName f n (cs ++ closing) = some (name, out)) :
    StaysBefore out fun rest =>
      ∀ m, cs.length < m → readBoundaryName f m cs = some (name, rest) := by
  induction n generalizing cs name with
  | zero => simp [readBoundaryName] at h
  | succ n ih =>
    cases cs with
    | nil => simp [closing, readBoundaryName, show isBoundaryNameChar ')' = false by decide] at h
    | cons c r =>
      by_cases hbrace : c = '\x7d'
      · rw [hbrace] at h
        cases h
        refine .intro _ fun m hm => ?_
        obtain ⟨m, rfl⟩ := Nat.exists_eq_add_one_of_ne_zero (Nat.ne_zero_of_lt hm)
        rw [hbrace]
        rfl
      · by_cases hc : isBoundaryNameChar c
        · simp only [List.cons_append, readBoundaryName, hc, ↓reduceIte] at h
          obtain ⟨⟨name', out'⟩, hr, heq⟩ := Option.map_eq_some_iff.1 h
          cases heq
          refine (staysBefore_skip f r).bind (suffix_of_readBoundaryName hr)
            fun rest hrest hskip => ?_
          rw [hrest] at hr
          refine (ih hr).imp fun rest' hread m hm => ?_
          obtain ⟨m, rfl⟩ := Nat.exists_eq_add_one_of_ne_zero (Nat.ne_zero_of_lt hm)
          have hle := (skip_suffix f r).length_le
          rw [hskip] at hle
          simp only [List.length_cons] at hm
          simp [readBoundaryName, hc, hskip, hread m (by omega)]
        · simp [readBoundaryName, hc] at h

/-- A brace with nothing behind it but blanks. -/
def Dangles (f : Flags) (cs : List Char) : Prop := ∃ r, cs = '\x7b' :: r ∧ f.skip r = []

/-- A boundary is read as if it stood alone, but for a brace behind which there is nothing: alone it
is refused, before the closing it is left to be read as a repetition. -/
theorem staysBefore_of_readBoundary {cs out : List Char} {p : Primitive}
    (h : readBoundary f (cs ++ closing) = some (p, out)) :
    StaysBefore out fun rest =>
      readBoundary f cs = some (p, rest) ∨ (∃ l, p = .look l) ∧ Dangles f rest := by
  cases cs with
  | nil =>
    cases h
    exact .intro [] (.inl rfl)
  | cons c r =>
    by_cases hbrace : c = '\x7b'
    · subst hbrace
      simp only [List.cons_append, readBoundary] at h
      rcases skip_closing f r with hs | hs
      · rw [hs] at h
        cases hskip : f.skip r with
        | nil =>
          rw [hskip] at h
          cases h
          exact .intro (_ :: r) (.inr ⟨⟨_, rfl⟩, r, rfl, hskip⟩)
        | cons d rest =>
          rw [hskip] at h
          by_cases hd : isBoundaryNameChar d
          · simp only [List.cons_append, hd, ↓reduceIte] at h
            split at h
            · rename_i hname
              obtain ⟨l, hl, heq⟩ := Option.map_eq_some_iff.1 h
              cases heq
              refine (staysBefore_of_readBoundaryName (List.cons_append ▸ hname)).imp
                fun rest' hread => .inl ?_
              simp [readBoundary, hskip, hd, hread (rest.length + 2) (by simp), hl]
            · cases h
          · simp only [List.cons_append, hd] at h
            cases h
            exact .intro (_ :: r) (.inl (by simp [readBoundary, hskip, hd]))
      · rw [hs] at h
        cases h
    · have hread : ∀ cs, readBoundary f (c :: cs) =
          some (.look (.wordBoundary f.unicode), c :: cs) := by
        intro cs
        unfold readBoundary
        split
        · rename_i heq
          cases heq
          exact absurd rfl hbrace
        · rfl
      rw [List.cons_append, hread] at h
      cases h
      exact .intro (c :: r) (.inl (hread r))

theorem staysBefore_of_readClass {b : Bool} {s : CharSet} {cs out : List Char} {p : Primitive}
    (h : readClass f b s (cs ++ closing) = some (p, out)) :
    StaysBefore out fun rest => readClass f b s cs = some (p, rest) := by
  obtain ⟨s', hs', heq⟩ := Option.map_eq_some_iff.1 h
  cases heq
  exact .intro _ (by simp [readClass, hs'])

theorem staysBefore_of_readEscape {cs out : List Char} {p : Primitive}
    (h : readEscape d f (cs ++ closing) = some (p, out)) :
    StaysBefore out fun rest =>
      readEscape d f cs = some (p, rest) ∨ (∃ l, p = .look l) ∧ Dangles f rest := by
  cases cs with
  | nil => exact .inr (suffix_of_behind_closing (isBehind_of_readEscape h))
  | cons c r =>
    rw [List.cons_append] at h
    unfold readEscape at h
    split at h
    any_goals
      rename_i heq
      cases heq
    any_goals
      first
        | exact (staysBefore_of_readCodePoint (by decide) h).imp fun _ => .inl
        | exact (staysBefore_of_readProperty h).imp fun _ => .inl
        | exact (staysBefore_of_readClass h).imp fun _ => .inl
        | exact staysBefore_of_readBoundary h
        | (cases h; exact .intro r (.inl rfl))
    split_ifs at h with hc
    cases h
    exact .intro r (.inl (by simp [readEscape, *]))

/-! ### Bracket classes -/

theorem staysBefore_of_readMember {cs out : List Char} {p : Primitive}
    (h : readMember d f (cs ++ closing) = some (p, out)) :
    StaysBefore out fun rest => readMember d f cs = some (p, rest) ∨ ∃ l, p = .look l := by
  cases cs with
  | nil => exact .inr (suffix_of_behind_closing (isBehind_of_readMember h))
  | cons c r =>
    by_cases hc : c = '\\'
    · rw [hc] at h
      exact hc ▸ (staysBefore_of_readEscape h).imp fun rest => Or.imp_right And.left
    · simp only [List.cons_append, readMember] at h
      cases h
      exact .intro r (.inl (by simp [readMember]))

theorem staysBefore_of_readRangeEnd {first : Char} {cs out : List Char} {s : CharSet}
    (h : readRangeEnd d f first (cs ++ closing) = some (s, out)) :
    StaysBefore out fun rest => readRangeEnd d f first cs = some (s, rest) := by
  unfold readRangeEnd at h
  split at h
  · rename_i p mid hm
    split at h
    · rename_i last hlast
      split_ifs at h with hle
      cases h
      refine (staysBefore_skip f cs).bind (isBehind_of_readMember hm).suffix
        fun rest hrest hskip => ?_
      rw [hrest] at hm
      refine (staysBefore_of_readMember hm).imp fun rest' hread => ?_
      rcases hread with hread | ⟨l, rfl⟩
      · simp [readRangeEnd, hskip, hread, hlast, hle]
      · cases hlast
    · cases h
  · cases h

theorem dropWhile_closing (cs : List Char) :
    (cs ++ closing).dropWhile Unicode.isWhiteSpace =
      cs.dropWhile Unicode.isWhiteSpace ++ closing := by
  induction cs with
  | nil => simp [closing, isWhiteSpace_closing]
  | cons c cs ih =>
    simp only [List.cons_append, List.dropWhile_cons, ih]
    split <;> rfl

theorem head?_closing (cs : List Char) : (cs ++ closing).head? = cs.head?.or (some ')') := by
  cases cs <;> rfl

/-- Where there is no other character, the closing parenthesis is seen. -/
theorem peek_closing (f : Flags) (cs : List Char) :
    f.peek (cs ++ closing) = (f.peek cs).or (some ')') := by
  unfold Flags.peek
  split_ifs
  · rw [dropWhile_closing]
    cases cs.dropWhile Unicode.isWhiteSpace with
    | nil => rfl
    | cons c r =>
      by_cases hc : c = '#'
      · subst hc
        simp only [List.cons_append]
        rw [dropWhile_closing, head?_closing]
      · simp [hc]
  · exact head?_closing cs

theorem peek_eq_of_peek_closing {cs : List Char} {c : Char} (hc : c ≠ ')')
    (h : f.peek (cs ++ closing) = some c) : f.peek cs = some c := by
  rw [peek_closing] at h
  cases hp : f.peek cs with
  | none =>
    rw [hp] at h
    exact absurd (Option.some.inj h).symm hc
  | some d =>
    rw [hp] at h
    exact h

section Range

variable {cs m t : List Char} {p : Primitive}

/-- A hyphen before `]` or another hyphen is left for the next member. -/
theorem readRange_of_hyphen (hread : readMember d f cs = some (p, m)) (hm : f.skip m = '-' :: t)
    (hpeek : f.peek t = some ']' ∨ f.peek t = some '-') :
    readRange d f cs = (p.toSet? f).map (·, '-' :: t) := by
  rcases hpeek with hpeek | hpeek <;> simp [readRange, hread, hm, hpeek]

theorem readRange_of_end (hread : readMember d f cs = some (p, m)) (hm : f.skip m = '-' :: t)
    (hbracket : f.peek t ≠ some ']') (hhyphen : f.peek t ≠ some '-') :
    readRange d f cs = (p.toChar? f).bind fun first => readRangeEnd d f first t := by
  simp [readRange, hread, hm]

theorem readRange_of_single (hread : readMember d f cs = some (p, m)) (hm : f.skip m = t)
    (hne : t ≠ []) (hhyphen : ∀ r, t ≠ '-' :: r) :
    readRange d f cs = (p.toSet? f).map (·, t) := by
  simp [readRange, hread, hm]

end Range

/-- A range is read as if it stood alone, unless it is followed by nothing but the closing. -/
theorem staysBefore_of_readRange {cs out : List Char} {s : CharSet}
    (h : readRange d f (cs ++ closing) = some (s, out)) :
    StaysBefore out fun rest => rest ≠ [] → readRange d f cs = some (s, rest) := by
  unfold readRange at h
  split at h
  · cases h
  · rename_i p mid hm
    have hskip : StaysBefore (f.skip mid) fun t =>
        ∃ m, (readMember d f cs = some (p, m) ∨ ∃ l, p = .look l) ∧ f.skip m = t :=
      (staysBefore_of_readMember hm).bind (skip_suffix f mid) fun m hmid hread => by
        rw [hmid]
        exact (staysBefore_skip f m).imp fun t ht => ⟨m, hread, ht⟩
    -- a test is neither a set nor an end of a range, so where `p` has been used it was read alone
    split at h
    · cases h
    · rename_i r hs
      rw [hs] at hskip
      have hend : ∀ {c : Char}, c ≠ ')' → (c = ']' ∨ c = '-') → f.peek r = some c →
          (p.toSet? f).map (·, '-' :: r) = some (s, out) →
          StaysBefore out fun rest => rest ≠ [] → readRange d f cs = some (s, rest) := by
        intro c hne hc hpeek h
        obtain ⟨s', hset, heq⟩ := Option.map_eq_some_iff.1 h
        cases heq
        obtain ⟨t, ht, m, hread, hm⟩ | ht := hskip
        · cases t with
          | nil => cases ht
          | cons d t =>
            cases ht
            have hpeek := peek_eq_of_peek_closing hne hpeek
            refine .intro ('-' :: t) fun _ => ?_
            rcases hread with hread | ⟨l, rfl⟩
            · rw [readRange_of_hyphen hread hm (by rcases hc with rfl | rfl <;> simp [hpeek]), hset]
              rfl
            · cases hset
        · exact .inr ht
      split at h
      · exact hend (by decide) (.inl rfl) ‹_› h
      · exact hend (by decide) (.inr rfl) ‹_› h
      · rename_i hbracket hhyphen
        obtain ⟨first, hfirst, h⟩ := Option.bind_eq_some_iff.1 h
        refine hskip.tail.bind (suffix_of_readRangeEnd h) fun t hr ⟨m, hread, ht⟩ => ?_
        rw [hr] at h hbracket hhyphen
        refine (staysBefore_of_readRangeEnd h).imp fun rest hrest _ => ?_
        have hpeek : ∀ {c : Char}, (f.peek (t ++ closing) = some c → False) →
            f.peek t ≠ some c := by
          intro c hc hp
          exact hc (by rw [peek_closing, hp]; rfl)
        rcases hread with hread | ⟨l, rfl⟩
        · rw [readRange_of_end hread ht (hpeek hbracket) (hpeek hhyphen), hfirst]
          exact hrest
        · cases hfirst
    · rename_i hnil hhyphen
      obtain ⟨s, hset, heq⟩ := Option.map_eq_some_iff.1 h
      cases heq
      obtain ⟨t, ht, m, hread, hm⟩ | ht := hskip
      · rw [ht] at hhyphen ⊢
        refine .intro t fun hne => ?_
        rcases hread with hread | ⟨l, rfl⟩
        · rw [readRange_of_single hread hm hne fun r hr => hhyphen (r ++ closing) (by rw [hr]; rfl),
            hset]
          rfl
        · cases hset
      · exact .inr ht

theorem splitAtChar_closing {mark : Char} (hmark : mark ∉ closing) (cs : List Char) :
    splitAtChar mark (cs ++ closing) =
      (splitAtChar mark cs).map fun (a, b) => (a, b ++ closing) := by
  induction cs with
  | nil => exact splitAtChar_of_not_mem hmark
  | cons c cs ih =>
    rw [List.cons_append, splitAtChar, splitAtChar, ih]
    split_ifs
    · rfl
    · cases splitAtChar mark cs <;> rfl

theorem staysBefore_takeCaret (f : Flags) (cs : List Char) :
    StaysBefore (f.takeCaret (cs ++ closing)).2 fun rest =>
      f.takeCaret cs = ((f.takeCaret (cs ++ closing)).1, rest) := by
  unfold Flags.takeCaret
  split
  · rename_i r hs
    refine (staysBefore_of_skip hs).bind (skip_suffix f r) fun rest hr hskip => ?_
    rw [hr]
    refine (staysBefore_skip f rest).imp fun rest' hrest' => ?_
    rw [hskip]
    simp [hrest']
  · rename_i hcaret
    obtain ⟨rest, hs, hskip⟩ | h := staysBefore_skip f cs
    · rw [hs]
      refine .intro _ ?_
      rw [hskip]
      split
      · exact absurd hs (hcaret _)
      · rfl
    · exact .inr h

theorem takeCaret_closing_of_no_blanks (cs : List Char) :
    Flags.initial.takeCaret (cs ++ closing) =
      ((Flags.initial.takeCaret cs).1, (Flags.initial.takeCaret cs).2 ++ closing) := by
  have hskip : ∀ cs, Flags.initial.skip cs = cs := fun _ => rfl
  unfold Flags.takeCaret
  simp only [hskip]
  cases cs with
  | nil => rfl
  | cons c r =>
    rw [List.cons_append]
    split
    · rename_i heq
      cases heq
      rfl
    · rename_i hcaret
      split
      · rename_i heq
        cases heq
        exact absurd rfl (hcaret _)
      · rfl

/-- A named class is read as if it stood alone. -/
theorem readAsciiClass_closing (cs : List Char) :
    readAsciiClass (cs ++ closing) =
      (readAsciiClass cs).map fun (b, s, rest) => (b, s, rest ++ closing) := by
  cases cs with
  | nil => rfl
  | cons c r =>
    by_cases hc : c = ':'
    · subst hc
      rw [List.cons_append, readAsciiClass_colon, readAsciiClass_colon,
        takeCaret_closing_of_no_blanks, splitAtChar_closing (by decide)]
      cases splitAtChar ':' (Flags.initial.takeCaret r).2 with
      | none => rfl
      | some ab =>
        obtain ⟨a, b⟩ := ab
        cases b with
        | nil => rfl
        | cons d b =>
          by_cases hd : d = ']'
          · subst hd
            simp only [Option.map_some, List.cons_append, Option.map_map]
            rfl
          · simp [hd]
    · simp [readAsciiClass, hc]

theorem staysBefore_readHyphens {n m : Nat} {cs : List Char} (hn : cs.length ≤ n)
    (hm : cs.length ≤ m) :
    StaysBefore (readHyphens f n (cs ++ closing)).2 fun rest =>
      readHyphens f m cs = ((readHyphens f n (cs ++ closing)).1, rest) := by
  induction n generalizing cs m with
  | zero =>
    obtain rfl := List.length_eq_zero_iff.1 (Nat.le_zero.1 hn)
    refine .intro _ ?_
    cases m <;> rfl
  | succ n ih =>
    cases cs with
    | nil =>
      refine .intro [] ?_
      cases m <;> rfl
    | cons c r =>
      obtain ⟨m, rfl⟩ := Nat.exists_eq_add_one_of_ne_zero (Nat.ne_zero_of_lt hm)
      by_cases hc : c = '-'
      · subst hc
        simp only [List.cons_append, readHyphens]
        refine (staysBefore_skip f r).bind (readHyphens_suffix f n _) fun rest hr hskip => ?_
        rw [hr, hskip]
        simp only [List.length_cons] at hn hm
        have hle := (skip_suffix f r).length_le
        rw [hskip] at hle
        refine (ih (m := m) (by omega) (by omega)).imp fun rest' hrest' => ?_
        rw [hrest']
      · have hother : ∀ n cs, readHyphens f n (c :: cs) = (false, c :: cs) := by
          intro n cs
          unfold readHyphens
          split
          · rfl
          · rename_i heq
            cases heq
            exact absurd rfl hc
          · rfl
        rw [List.cons_append, hother, hother]
        exact .intro (c :: r) rfl

theorem staysBefore_readOpening (f : Flags) (cs : List Char) :
    StaysBefore (readOpening f (cs ++ closing)).2.2 fun rest =>
      readOpening f cs =
        ((readOpening f (cs ++ closing)).1, (readOpening f (cs ++ closing)).2.1, rest) := by
  have hout := readHyphens_suffix f (f.takeCaret (cs ++ closing)).2.length
    (f.takeCaret (cs ++ closing)).2
  rw [readOpening_eq]
  have hhyphens : StaysBefore (readHyphens f (f.takeCaret (cs ++ closing)).2.length
      (f.takeCaret (cs ++ closing)).2).2 fun rest =>
        readHyphens f (f.takeCaret cs).2.length (f.takeCaret cs).2 =
          ((readHyphens f (f.takeCaret (cs ++ closing)).2.length
            (f.takeCaret (cs ++ closing)).2).1, rest) ∧
          (f.takeCaret cs).1 = (f.takeCaret (cs ++ closing)).1 := by
    refine (staysBefore_takeCaret f cs).bind hout fun t ht hcaret => ?_
    rw [ht, hcaret]
    refine (staysBefore_readHyphens (by simp) (Nat.le_refl _)).imp fun rest hrest => ⟨hrest, rfl⟩
  split
  · rename_i rest hh
    rw [hh] at hhyphens
    refine hhyphens.imp fun rest' hrest' => ?_
    rw [readOpening_eq, hrest'.1, hrest'.2]
  · rename_i r hh
    rw [hh] at hhyphens
    refine hhyphens.tail.bind (skip_suffix f r) fun rest hr hrest => ?_
    rw [hr]
    refine (staysBefore_skip f rest).imp fun rest' hrest' => ?_
    rw [readOpening_eq, hrest.1, hrest.2, ← hrest']
    rfl
  · rename_i r hbracket hh
    rw [hh] at hhyphens
    obtain ⟨rest, hr, hrest⟩ | h := hhyphens
    · obtain rfl : r = rest ++ closing := hr
      refine .intro _ ?_
      rw [readOpening_eq, hrest.1, hrest.2]
      split
      · rename_i heq
        cases heq
      · rename_i heq
        cases heq
        exact absurd rfl (hbracket _)
      · rename_i heq
        cases heq
        rfl
    · exact .inr h

theorem staysBefore_of_readSet {n : Nat} {pending : Option (SetOp × CharSet)} {acc s : CharSet}
    {cs out : List Char} (h : readSet d f n pending acc (cs ++ closing) = some (s, out)) :
    StaysBefore out fun rest =>
      ∀ m, cs.length < m → readSet d f m pending acc cs = some (s, rest) := by
  generalize hcs : cs ++ closing = text at h
  fun_induction readSet d f n pending acc text generalizing cs s out with
  | case3 n pending acc text r hs =>
    cases h
    subst hcs
    refine (staysBefore_of_skip hs).imp fun rest hskip m hm => ?_
    obtain ⟨m, rfl⟩ := Nat.exists_eq_add_one_of_ne_zero (Nat.ne_zero_of_lt hm)
    simp [readSet, hskip]
  | case4 n pending acc text r hs negated s' mid hclass s'' hfinish ih =>
    subst hcs
    have hmid := suffix_of_readAsciiClass hclass
    refine (staysBefore_of_skip hs).bind ((isBehind_of_readSet h).suffix.trans hmid)
      fun rest hr hskip => ?_
    rw [hr, readAsciiClass_closing] at hclass
    obtain ⟨⟨negated', s', rest'⟩, hclass', heq⟩ := Option.map_eq_some_iff.1 hclass
    cases heq
    have hle := (suffix_of_readAsciiClass hclass').length_le
    have hlt := (isBehind_of_skip hskip).length_lt
    refine (ih rfl h).imp fun rest'' hread m hm => ?_
    obtain ⟨m, rfl⟩ := Nat.exists_eq_add_one_of_ne_zero (Nat.ne_zero_of_lt hm)
    simp [readSet, hskip, hclass', hfinish, hread m (by omega)]
  | case6 n pending acc text r hs hclass negated first inner hopening s' mid hset s'' hfinish
      ihset ih =>
    subst hcs
    have hinner := readOpening_suffix f r
    rw [hopening] at hinner
    have hmid := (isBehind_of_readSet hset).suffix
    refine (staysBefore_of_skip hs).bind ((isBehind_of_readSet h).suffix.trans (hmid.trans hinner))
      fun rest hr hskip => ?_
    have hopen := staysBefore_readOpening f rest
    rw [← hr, hopening] at hopen
    refine hopen.bind ((isBehind_of_readSet h).suffix.trans hmid) fun inner' hinner' hopen => ?_
    have hinner' : inner = inner' ++ closing := hinner'
    refine (ihset hinner'.symm hset).bind (isBehind_of_readSet h).suffix fun mid' hmid' hread => ?_
    refine (ih hmid'.symm h).imp fun rest' hread' m hm => ?_
    obtain ⟨m, rfl⟩ := Nat.exists_eq_add_one_of_ne_zero (Nat.ne_zero_of_lt hm)
    rw [hr, readAsciiClass_closing, Option.map_eq_none_iff] at hclass
    have hlt := (isBehind_of_skip hskip).length_lt
    have hle : inner'.length ≤ rest.length := by
      have hlen := hinner.length_le
      simp only [hr, hinner', List.length_append] at hlen
      omega
    have hle' : mid'.length ≤ inner'.length := by
      have hlen := hmid.length_le
      simp only [hmid', hinner', List.length_append] at hlen
      omega
    simp [readSet, hskip, hclass, hopen, hread m (by omega), hfinish, hread' m (by omega)]
  | case9 n pending acc text r hs ih | case10 n pending acc text r hs ih
  | case11 n pending acc text r hs ih =>
    subst hcs
    refine (staysBefore_of_skip hs).tail.bind (isBehind_of_readSet h).suffix
      fun rest hr hskip => ?_
    refine (ih hr.symm h).imp fun rest' hread m hm => ?_
    obtain ⟨m, rfl⟩ := Nat.exists_eq_add_one_of_ne_zero (Nat.ne_zero_of_lt hm)
    have hlt := (isBehind_of_skip hskip).length_lt
    simp only [List.length_cons] at hlt
    simp [readSet, hskip, hread m (by omega)]
  | case12 n pending acc text s' mid h1 h2 h3 h4 h5 h6 hrange ih =>
    subst hcs
    have hmid := (isBehind_of_readRange hrange).suffix
    refine (staysBefore_skip f cs).bind ((isBehind_of_readSet h).suffix.trans hmid)
      fun t ht hskip => ?_
    rw [ht] at hrange h1 h2 h3 h4 h5 h6
    refine (staysBefore_of_readRange hrange).bind (isBehind_of_readSet h).suffix
      fun mid' hmid' hread => ?_
    cases mid' with
    | nil =>
      rw [hmid'] at h
      exact .inr (suffix_of_behind_closing (isBehind_of_readSet h))
    | cons d mid' =>
      refine (ih hmid'.symm h).imp fun rest' hread' m hm => ?_
      obtain ⟨m, rfl⟩ := Nat.exists_eq_add_one_of_ne_zero (Nat.ne_zero_of_lt hm)
      have hread := hread (List.cons_ne_nil d mid')
      have hlt := (isBehind_of_readRange hread).length_lt
      have hle := (skip_suffix f cs).length_le
      rw [hskip] at hle
      unfold readSet
      rw [hskip]
      split
      · cases hread
      · exact absurd rfl (h2 _)
      · exact absurd rfl (h3 _)
      · exact absurd rfl (h4 _)
      · exact absurd rfl (h5 _)
      · exact absurd rfl (h6 _)
      · simp [hread, hread' m (by omega)]
  | _ => simp at h

theorem staysBefore_of_readBracket {cs out : List Char} {s : CharSet}
    (h : readBracket d f (cs ++ closing) = some (s, out)) :
    StaysBefore out fun rest => readBracket d f cs = some (s, rest) := by
  have hopen := staysBefore_readOpening f cs
  unfold readBracket at h
  split at h
  rename_i negated first inner hopening
  rw [hopening] at hopen
  split at h
  · rename_i hset
    obtain ⟨s', hfinish, heq⟩ := Option.map_eq_some_iff.1 h
    cases heq
    refine hopen.bind (isBehind_of_readSet hset).suffix fun inner' hinner' hopen => ?_
    obtain rfl : inner = inner' ++ closing := hinner'
    refine (staysBefore_of_readSet hset).imp fun rest hread => ?_
    simp [readBracket, hopen, hread _ (Nat.lt_succ_self _), hfinish]
  · cases h

end OrderedChoice.Regex
