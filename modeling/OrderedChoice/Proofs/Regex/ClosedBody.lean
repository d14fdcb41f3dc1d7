import OrderedChoice.Proofs.Regex.Closing

/-!
# Bodies before a closing

The readers of groups, repetitions and alternatives, continued from the parts of a class: what they
read before the closing, they read alone (`staysBefore_of_readBody`).
-/

namespace OrderedChoice.Regex

variable {d : Dialect} {f : Flags}

/-! ### Groups and repetitions -/

/-- The head of a group with something else behind it. -/
def GroupHead.withRest (g : GroupHead) (rest : List Char) : GroupHead :=
  match g with
  | setting f _ => .setting f rest
  | body f names _ => .body f names rest

theorem staysBefore_of_readFlags {names : List (List Char)} {f : Flags} {seen cs : List Char}
    {off hyphen : Bool} {g : GroupHead}
    (h : readFlags names f seen off hyphen (cs ++ closing) = some g) :
    StaysBefore g.rest fun rest =>
      readFlags names f seen off hyphen cs = some (g.withRest rest) := by
  induction cs generalizing f seen off hyphen with
  | nil => exact .inr (suffix_of_behind_closing (isBehind_of_readFlags h))
  | cons c r ih =>
    rw [List.cons_append, readFlags] at h
    rw [readFlags]
    split_ifs at h ⊢
    · cases h
      exact .intro r rfl
    · cases h
      exact .intro r rfl
    · exact ih h
    · cases hset : f.set? c (!off) with
      | none => simp [hset] at h
      | some f' =>
        simp only [hset] at h ⊢
        exact ih h

theorem staysBefore_of_readGroupName {names names' : List (List Char)} {cs out : List Char}
    (h : readGroupName names (cs ++ closing) = some (names', out)) :
    StaysBefore out fun rest => readGroupName names cs = some (names', rest) := by
  unfold readGroupName at h
  rw [splitAtChar_closing (by decide)] at h
  split at h
  · rename_i hsplit
    obtain ⟨⟨a, b⟩, hsplit', heq⟩ := Option.map_eq_some_iff.1 hsplit
    cases heq
    split_ifs at h with hname
    cases h
    exact .intro _ (by simp only [readGroupName, hsplit', hname, ↓reduceIte])
  · cases h

/-- What does not begin with `l` before the closing does not begin with it alone. -/
theorem ne_cons_of_closing {l t : List Char} (hl : ∀ tail, t ++ closing = l ++ tail → False)
    (tail : List Char) : t = l ++ tail → False := by
  rintro rfl
  exact hl (tail ++ closing) (List.append_assoc l tail closing)

theorem staysBefore_of_readGroupHead {names : List (List Char)} {cs : List Char} {g : GroupHead}
    (h : readGroupHead f names (cs ++ closing) = some g) :
    StaysBefore g.rest fun rest => readGroupHead f names cs = some (g.withRest rest) := by
  unfold readGroupHead at h
  split at h
  any_goals cases h; done
  · rename_i r hs
    obtain ⟨⟨names', rest⟩, hname, rfl⟩ := Option.map_eq_some_iff.1 h
    refine (staysBefore_of_skip hs).tail.tail.bind (suffix_of_readGroupName hname)
      fun t ht hskip => ?_
    rw [ht] at hname
    refine (staysBefore_of_readGroupName hname).imp fun rest hread => ?_
    simp [readGroupHead, hskip, hread, GroupHead.withRest]
  · rename_i r hequal hbang hs
    obtain ⟨⟨names', rest⟩, hname, rfl⟩ := Option.map_eq_some_iff.1 h
    refine (staysBefore_of_skip hs).tail.bind (suffix_of_readGroupName hname)
      fun t ht hskip => ?_
    rw [ht] at hname hequal hbang
    refine (staysBefore_of_readGroupName hname).imp fun rest hread => ?_
    have hequal := ne_cons_of_closing (l := ['=']) hequal
    have hbang := ne_cons_of_closing (l := ['!']) hbang
    simp only [List.singleton_append] at hequal hbang
    simp [readGroupHead, hskip, hread, GroupHead.withRest]
  · rename_i r hequal hbang hbehind hnotBehind hnamed hangle hs
    refine (staysBefore_of_skip hs).bind (isBehind_of_readFlags h).suffix fun t ht hskip => ?_
    rw [ht] at h hequal hbang hbehind hnotBehind hnamed hangle
    refine (staysBefore_of_readFlags h).imp fun rest hread => ?_
    have hequal := ne_cons_of_closing (l := ['=']) hequal
    have hbang := ne_cons_of_closing (l := ['!']) hbang
    have hbehind := ne_cons_of_closing (l := ['<', '=']) hbehind
    have hnotBehind := ne_cons_of_closing (l := ['<', '!']) hnotBehind
    have hnamed := ne_cons_of_closing (l := ['P', '<']) hnamed
    have hangle := ne_cons_of_closing (l := ['<']) hangle
    simp only [List.cons_append, List.nil_append] at hequal hbang hbehind hnotBehind hnamed hangle
    simp [readGroupHead, hskip, hread]
  · rename_i hquestion
    cases h
    obtain ⟨t, ht, hskip⟩ | h := staysBefore_skip f cs
    · rw [ht] at hquestion ⊢
      have hquestion := ne_cons_of_closing (l := ['?']) hquestion
      refine .intro t ?_
      unfold readGroupHead
      rw [hskip]
      split
      any_goals exact absurd rfl (hquestion _)
      rfl
    · exact .inr h

theorem staysBefore_readDigits {n m : Nat} {cs : List Char} (hn : cs.length ≤ n)
    (hm : cs.length ≤ m) :
    StaysBefore (readDigits f n (cs ++ closing)).2 fun rest =>
      readDigits f m cs = ((readDigits f n (cs ++ closing)).1, rest) := by
  induction n generalizing cs m with
  | zero =>
    obtain rfl := List.length_eq_zero_iff.1 (Nat.le_zero.1 hn)
    refine .intro _ ?_
    cases m <;> rfl
  | succ n ih =>
    cases cs with
    | nil =>
      refine .intro [] ?_
      cases m <;> rfl
    | cons c r =>
      obtain ⟨m, rfl⟩ := Nat.exists_eq_add_one_of_ne_zero (Nat.ne_zero_of_lt hm)
      simp only [List.cons_append, readDigits]
      split_ifs
      · refine (staysBefore_skip f r).bind (readDigits_suffix f n _) fun rest hr hskip => ?_
        rw [hr, hskip]
        simp only [List.length_cons] at hn hm
        have hle := (skip_suffix f r).length_le
        rw [hskip] at hle
        refine (ih (m := m) (by omega) (by omega)).imp fun rest' hrest' => ?_
        rw [hrest']
      · exact .intro (c :: r) rfl

theorem staysBefore_of_readCount {n : Nat} {cs out : List Char}
    (h : readCount f (cs ++ closing) = some (n, out)) :
    StaysBefore out fun rest => readCount f cs = some (n, rest) := by
  unfold readCount at h
  rw [dropWhile_closing] at h
  have hle := (List.dropWhile_suffix (l := cs) Unicode.isWhiteSpace).length_le
  have hle' : (cs.dropWhile Unicode.isWhiteSpace).length ≤ (cs ++ closing).length := by
    rw [List.length_append]
    omega
  have hdigits := staysBefore_readDigits (f := f) hle' hle
  split at h
  rename_i ds mid hd
  rw [hd] at hdigits
  split at h
  · cases h
  · rename_i hds
    simp only at h
    split_ifs at h with hlt
    cases h
    refine hdigits.bind ((skip_suffix f _).trans (List.dropWhile_suffix _))
      fun mid' hmid hread => ?_
    obtain rfl : mid = mid' ++ closing := hmid
    rw [dropWhile_closing]
    refine (staysBefore_skip f _).imp fun rest hrest => ?_
    unfold readCount
    simp only [hread, hrest]
    exact if_pos hlt

theorem staysBefore_of_readCount_skip {n : Nat} {cs out : List Char}
    (h : readCount f (f.skip (cs ++ closing)) = some (n, out)) :
    StaysBefore out fun rest => readCount f (f.skip cs) = some (n, rest) := by
  refine (staysBefore_skip f cs).bind (suffix_of_readCount h) fun t ht hskip => ?_
  rw [ht] at h
  rw [hskip]
  exact staysBefore_of_readCount h

theorem staysBefore_of_closeCounts {least n : Nat} {most m : Option Nat} {cs out : List Char}
    (h : closeCounts f least most (cs ++ closing) = some (n, m, out)) :
    StaysBefore out fun rest => closeCounts f least most cs = some (n, m, rest) := by
  cases cs with
  | nil => cases h
  | cons c r =>
    unfold closeCounts at h
    split at h
    · rename_i r' hbrace
      cases hbrace
      split at h
      · rename_i hs
        cases h
        refine (staysBefore_of_skip hs).imp fun rest hskip => ?_
        simp [closeCounts, hskip]
      · rename_i hquestion
        cases h
        change StaysBefore (f.skip (r ++ closing)) _
        change ∀ q, f.skip (r ++ closing) = '?' :: q → False at hquestion
        obtain ⟨t, ht, hskip⟩ | h := staysBefore_skip f r
        · rw [ht] at hquestion ⊢
          have hquestion := ne_cons_of_closing (l := ['?']) hquestion
          simp only [List.singleton_append] at hquestion
          refine .intro t ?_
          simp [closeCounts, hskip]
        · exact .inr h
    · cases h

theorem staysBefore_of_readCounts {n : Nat} {m : Option Nat} {cs out : List Char}
    (h : readCounts f (cs ++ closing) = some (n, m, out)) :
    StaysBefore out fun rest => readCounts f cs = some (n, m, rest) := by
  unfold readCounts at h
  split at h
  · cases h
  · rename_i least r hcount
    have hleast := (staysBefore_of_readCount_skip hcount).tail
    split at h
    · rename_i r' hs
      refine hleast.bind ((isBehind_of_closeCounts h).suffix.trans (hs ▸ skip_suffix f r))
        fun t ht hread => ?_
      rw [ht] at hs
      refine (staysBefore_of_skip hs).bind (isBehind_of_closeCounts h).suffix_of_cons
        fun t' ht' hskip => ?_
      rw [ht'] at h
      refine (staysBefore_of_closeCounts (List.cons_append ▸ h)).imp fun rest hclose => ?_
      simp [readCounts, hread, hskip, hclose]
    · rename_i hbrace
      split at h
      · rename_i most r' hmost
        split_ifs at h with hle
        refine hleast.bind ((isBehind_of_closeCounts h).suffix.trans
          ((suffix_of_readCount hmost).trans (skip_suffix f r))) fun t ht hread => ?_
        rw [ht] at hmost hbrace
        refine (staysBefore_of_readCount_skip hmost).bind (isBehind_of_closeCounts h).suffix
          fun t' ht' hread' => ?_
        rw [ht'] at h
        refine (staysBefore_of_closeCounts h).imp fun rest hclose => ?_
        unfold readCounts
        simp only [hread]
        split
        · rename_i hs
          rcases skip_closing f t with hclosing | hclosing
          · rw [hclosing, hs] at hbrace
            exact absurd rfl (hbrace _)
          · rw [hclosing] at hmost
            cases hmost
        · simp [hread', hle, hclose]
      · cases h
  · rename_i hcomma hcount
    refine (staysBefore_of_readCount_skip hcount).bind (isBehind_of_closeCounts h).suffix
      fun t ht hread => ?_
    rw [ht] at h hcomma
    refine (staysBefore_of_closeCounts h).imp fun rest hclose => ?_
    have hcomma := ne_cons_of_closing (l := [',']) hcomma
    unfold readCounts
    simp only [hread]
    split
    · rename_i heq
      cases heq
    · rename_i heq
      cases heq
      exact absurd rfl (hcomma _)
    · rename_i heq
      cases heq
      exact hclose

/-- A repetition has no counts where there is nothing before the closing. -/
theorem readCounts_closing {cs : List Char} (h : f.skip cs = []) :
    readCounts f (cs ++ closing) = none := by
  rcases skip_closing f cs with hs | hs
  · rw [readCounts, hs, h]
    simp [readCount, closing, readDigits, isWhiteSpace_closing]
  · rw [readCounts, hs]
    rfl

/-! ### Alternatives -/

theorem dropLazy_closing (cs : List Char) : dropLazy (cs ++ closing) = dropLazy cs ++ closing := by
  cases cs with
  | nil => rfl
  | cons c r =>
    by_cases hc : c = '?'
    · subst hc
      rfl
    · simp [dropLazy, hc]

/-- An atom is read as if it stood alone, but for a boundary with a brace behind which there is
nothing. -/
theorem staysBefore_of_readAtom {cs out : List Char} {r : Regex}
    (h : readAtom d f (cs ++ closing) = some (r, out)) :
    StaysBefore out fun rest => readAtom d f cs = some (r, rest) ∨ Dangles f rest := by
  cases cs with
  | nil => exact .inr (suffix_of_behind_closing (isBehind_of_readAtom h))
  | cons c cs =>
    rw [List.cons_append] at h
    unfold readAtom at h
    split at h
    · cases ‹_ = []›
    · rename_i heq
      cases heq
      obtain ⟨⟨p, mid⟩, hescape, h⟩ := Option.bind_eq_some_iff.1 h
      obtain ⟨r, hr, heq⟩ := Option.map_eq_some_iff.1 h
      cases heq
      refine (staysBefore_of_readEscape hescape).imp fun rest hread => ?_
      exact hread.imp (fun hread => by simp [readAtom, hread, hr]) And.right
    · rename_i heq
      cases heq
      obtain ⟨⟨s, mid⟩, hbracket, heq⟩ := Option.map_eq_some_iff.1 h
      cases heq
      refine (staysBefore_of_readBracket hbracket).imp fun rest hread => .inl ?_
      simp [readAtom, hread]
    · rename_i heq
      cases heq
      obtain ⟨s, hs, heq⟩ := Option.map_eq_some_iff.1 h
      cases heq
      exact .intro cs (.inl (by simp [readAtom, hs]))
    · rename_i heq
      cases heq
      cases h
      exact .intro cs (.inl rfl)
    · rename_i heq
      cases heq
      cases h
      exact .intro cs (.inl rfl)
    · rename_i heq
      cases heq
      cases h
      exact .intro cs (.inl (by simp [readAtom, *]))

theorem skip_brace (f : Flags) (r : List Char) : f.skip ('\x7b' :: r) = '\x7b' :: r := by
  unfold Flags.skip
  split_ifs
  · rw [dropBlanks, if_neg (by decide), if_neg (by decide)]
  · rfl

/-- No body can be read on from a brace that has nothing but the closing behind it. -/
theorem readBody_dangling {cs : List Char} (h : Dangles f cs) (n : Nat) (branches : List Regex)
    (items : List Item) (names : List (List Char)) :
    readBody d n branches items ⟨f, names, cs ++ closing⟩ = none := by
  obtain ⟨r, rfl, hskip⟩ := h
  cases n with
  | zero => rfl
  | succ n => simp [readBody, skip_brace, readCounts_closing hskip]

/-- What a body reads before the closing, it reads alone. -/
theorem staysBefore_of_readBody {n : Nat} {branches : List Regex} {items : List Item}
    {names : List (List Char)} {cs : List Char} {s' : Reading} {r : Regex}
    (h : readBody d n branches items ⟨f, names, cs ++ closing⟩ = some (r, s')) :
    StaysBefore s'.rest fun rest => ∀ m, cs.length < m →
      readBody d m branches items ⟨f, names, cs⟩ = some (r, { s' with rest := rest }) := by
  -- along the calls of the reader: as long as the closing is not reached, every call is on a text
  -- that ends in it
  generalize hs : (⟨f, names, cs ++ closing⟩ : Reading) = s at h
  fun_induction readBody d n branches items s generalizing f names cs r s' with
  | case2 n branches items s hskip =>
    cases h
    exact .inr List.nil_suffix
  | case3 n branches items s r' hskip =>
    subst hs
    cases h
    have hread : ∀ t, f.skip cs = t → t ++ closing = ')' :: r' → ∀ m, cs.length < m →
        readBody d m branches items ⟨f, names, cs⟩ =
          some (ofBranches items branches, ⟨f, names, t⟩) := by
      intro t hskip' ht m hm
      obtain ⟨m, rfl⟩ := Nat.exists_eq_add_one_of_ne_zero (Nat.ne_zero_of_lt hm)
      cases t with
      | nil => simp [readBody, hskip']
      | cons c t =>
        cases ht
        simp [readBody, hskip']
    obtain ⟨t, ht, hskip'⟩ | hend := staysBefore_skip f cs
    · change f.skip (cs ++ closing) = _ at hskip
      rw [hskip] at ht
      exact .inl ⟨t, ht, hread t hskip' ht.symm⟩
    · exact .inr (hskip ▸ hend)
  | case4 n branches items s r' hskip ih =>
    subst hs
    refine (staysBefore_of_skip hskip).bind (suffix_of_readBody h) fun t hr hskip' => ?_
    refine (ih (by rw [hr]) h).imp fun rest hread m hm => ?_
    obtain ⟨m, rfl⟩ := Nat.exists_eq_add_one_of_ne_zero (Nat.ne_zero_of_lt hm)
    have hlt := (isBehind_of_skip hskip').length_lt
    simp [readBody, hskip', hread m (by omega)]
  | case6 n branches items s r' hskip f' mid hhead ih =>
    subst hs
    have hmid := (suffix_of_readGroupHead hhead).trans (skip_suffix f r')
    refine (staysBefore_of_skip hskip).bind ((suffix_of_readBody h).trans hmid)
      fun t hr hskip' => ?_
    rw [hr] at hhead
    refine (staysBefore_of_readGroupHead hhead).bind (suffix_of_readBody h)
      fun mid' hmid' hhead' => ?_
    refine (ih (by rw [← hmid']; rfl) h).imp fun rest hread m hm => ?_
    obtain ⟨m, rfl⟩ := Nat.exists_eq_add_one_of_ne_zero (Nat.ne_zero_of_lt hm)
    have hlt := (isBehind_of_skip hskip').length_lt
    have hle := ((suffix_of_readGroupHead hhead').trans (skip_suffix f t)).length_le
    simp only [GroupHead.withRest, GroupHead.rest] at hhead' hle
    simp [readBody, hskip', hhead', hread m (by omega)]
  | case7 n branches items s r' hskip f' names mid hhead body f'' names' mid' hbody ihbody ih =>
    subst hs
    have hmid := (suffix_of_readGroupHead hhead).trans (skip_suffix f r')
    have hmid' : mid' <:+ mid := (List.suffix_cons ')' mid').trans (suffix_of_readBody hbody)
    refine (staysBefore_of_skip hskip).bind ((suffix_of_readBody h).trans (hmid'.trans hmid))
      fun t hr hskip' => ?_
    rw [hr] at hhead
    refine (staysBefore_of_readGroupHead hhead).bind ((suffix_of_readBody h).trans hmid')
      fun inner hinner hhead' => ?_
    refine (ihbody (by rw [← hinner]; rfl) hbody).tail.bind (suffix_of_readBody h)
      fun outer houter hbody' => ?_
    refine (ih (by rw [houter]) h).imp fun rest hread m hm => ?_
    obtain ⟨m, rfl⟩ := Nat.exists_eq_add_one_of_ne_zero (Nat.ne_zero_of_lt hm)
    have hlt := (isBehind_of_skip hskip').length_lt
    have hle := ((suffix_of_readGroupHead hhead').trans (skip_suffix f t)).length_le
    simp only [GroupHead.withRest, GroupHead.rest] at hhead' hle
    have hbody' := hbody' m (by omega)
    have hle' := (suffix_of_readBody hbody').length_le
    simp only [List.length_cons] at hle'
    simp [readBody, hskip', hhead', hbody', hread m (by omega)]
  | case9 n branches items s r' hskip ih | case10 n branches items s r' hskip ih
  | case11 n branches items s r' hskip ih =>
    subst hs
    obtain ⟨items', hitems, h⟩ := Option.bind_eq_some_iff.1 h
    refine (staysBefore_of_skip hskip).bind ((suffix_of_readBody h).trans (dropLazy_suffix r'))
      fun t hr hskip' => ?_
    refine (ih items' (by rw [hr, dropLazy_closing]) h).imp fun rest hread m hm => ?_
    obtain ⟨m, rfl⟩ := Nat.exists_eq_add_one_of_ne_zero (Nat.ne_zero_of_lt hm)
    have hlt := (isBehind_of_skip hskip').length_lt
    have hle := (dropLazy_suffix t).length_le
    simp [readBody, hskip', hitems, hread m (by omega)]
  | case12 n branches items s r' hskip least most mid hcounts ih =>
    subst hs
    obtain ⟨items', hitems, h⟩ := Option.bind_eq_some_iff.1 h
    have hmid := suffix_of_readCounts hcounts
    refine (staysBefore_of_skip hskip).bind ((suffix_of_readBody h).trans hmid)
      fun t hr hskip' => ?_
    rw [hr] at hcounts
    refine (staysBefore_of_readCounts hcounts).bind (suffix_of_readBody h)
      fun mid' hmid' hcounts' => ?_
    refine (ih items' (by rw [hmid']) h).imp fun rest hread m hm => ?_
    obtain ⟨m, rfl⟩ := Nat.exists_eq_add_one_of_ne_zero (Nat.ne_zero_of_lt hm)
    have hlt := (isBehind_of_skip hskip').length_lt
    have hle := (suffix_of_readCounts hcounts').length_le
    simp [readBody, hskip', hcounts', hitems, hread m (by omega)]
  | case14 n branches items s node mid _ hparen hbar hopen hstar hplus hquestion hbrace hatom ih =>
    subst hs
    refine (staysBefore_skip f cs).bind
      ((suffix_of_readBody h).trans (isBehind_of_readAtom hatom).suffix) fun t ht hskip => ?_
    simp only [ht] at hparen hbar hopen hstar hplus hquestion hbrace hatom
    refine (staysBefore_of_readAtom hatom).bind (suffix_of_readBody h) fun mid' hmid hread => ?_
    -- a boundary that is read differently alone leaves a brace that the next call refuses
    rcases hread with hread | hdangles
    · refine (ih (by rw [hmid]) h).imp fun rest hread' m hm => ?_
      obtain ⟨m, rfl⟩ := Nat.exists_eq_add_one_of_ne_zero (Nat.ne_zero_of_lt hm)
      have hlt := (isBehind_of_readAtom hread).length_lt
      have hle := (skip_suffix f cs).length_le
      rw [hskip] at hle
      unfold readBody
      simp only [hskip]
      split
      · cases hread
      · exact absurd rfl (hparen _)
      · exact absurd rfl (hbar _)
      · exact absurd rfl (hopen _)
      · exact absurd rfl (hstar _)
      · exact absurd rfl (hplus _)
      · exact absurd rfl (hquestion _)
      · exact absurd rfl (hbrace _)
      · simp [hread, hread' m (by omega)]
    · rw [hmid] at h
      simp [readBody_dangling hdangles] at h
  | _ => simp at h

end OrderedChoice.Regex
