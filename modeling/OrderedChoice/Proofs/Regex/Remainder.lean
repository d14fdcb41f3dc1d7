import Mathlib.Tactic.SplitIfs
import OrderedChoice.Regex.Reader

/-!
# What readers leave

Every reader of a part of a regular expression takes the part off the front of a text and leaves an
end of it.  Readers that take at least one character leave what is *behind* it (`IsBehind`).

* `skip_suffix` for blanks, `isBehind_of_readEscape` for escapes, `isBehind_of_readSet` for the
  inside of bracket classes, `suffix_of_readGroupHead` and `suffix_of_readCounts` for groups and
  repetitions;
* `suffix_of_readBody` for alternatives up to a closing parenthesis.
-/

namespace OrderedChoice.Regex

variable {d : Dialect} {f : Flags}

/-- An end of a text, with at least one character before it. -/
def IsBehind (rest cs : List Char) : Prop := ∃ c r, cs = c :: r ∧ rest <:+ r

namespace IsBehind

variable {rest rest' cs : List Char}

theorem of_cons (c : Char) {r : List Char} (h : rest <:+ r) : IsBehind rest (c :: r) :=
  ⟨c, r, rfl, h⟩

theorem suffix (h : IsBehind rest cs) : rest <:+ cs := by
  obtain ⟨c, r, rfl, h⟩ := h
  exact h.trans (List.suffix_cons c r)

theorem suffix_of_cons {c : Char} {r : List Char} (h : IsBehind rest (c :: r)) : rest <:+ r := by
  obtain ⟨d, r', heq, h⟩ := h
  cases heq
  exact h

theorem length_lt (h : IsBehind rest cs) : rest.length < cs.length := by
  obtain ⟨c, r, rfl, h⟩ := h
  exact Nat.lt_succ_of_le h.length_le

theorem trans_suffix (h : IsBehind rest rest') (h' : rest' <:+ cs) : IsBehind rest cs := by
  obtain ⟨c, r, rfl, h⟩ := h
  obtain ⟨front, rfl⟩ := h'
  cases front with
  | nil => exact of_cons c h
  | cons d front =>
    exact of_cons d (h.trans ((List.suffix_cons c r).trans (List.suffix_append front _)))

theorem suffix_trans (h : rest <:+ rest') (h' : IsBehind rest' cs) : IsBehind rest cs := by
  obtain ⟨c, r, rfl, h'⟩ := h'
  exact of_cons c (h.trans h')

end IsBehind

/-! ### Blanks -/

theorem dropBlanks_suffix (b : Bool) (cs : List Char) : dropBlanks b cs <:+ cs := by
  induction cs generalizing b with
  | nil => cases b <;> exact List.suffix_rfl
  | cons c cs ih =>
    have hcons : cs <:+ c :: cs := List.suffix_cons c cs
    cases b with
    | true => exact (ih _).trans hcons
    | false =>
      rw [dropBlanks]
      split_ifs
      · exact (ih _).trans hcons
      · exact (ih _).trans hcons
      · exact List.suffix_rfl

theorem skip_suffix (f : Flags) (cs : List Char) : f.skip cs <:+ cs := by
  unfold Flags.skip
  split_ifs
  · exact dropBlanks_suffix false cs
  · exact List.suffix_rfl

theorem isBehind_of_skip {cs r : List Char} {c : Char} (h : f.skip cs = c :: r) : IsBehind r cs :=
  (IsBehind.of_cons c List.suffix_rfl).trans_suffix (h ▸ skip_suffix f cs)

/-! ### Escapes -/

theorem suffix_of_readHexDigits {n acc v : Nat} {cs rest : List Char}
    (h : readHexDigits f n acc cs = some (v, rest)) : rest <:+ cs := by
  fun_induction readHexDigits f n acc cs with
  | case1 => simp_all
  | case2 => simp at h
  | case3 n acc c r d hd ih =>
    exact (ih h).trans ((skip_suffix f r).trans (List.suffix_cons c r))
  | case4 => simp at h

theorem suffix_of_readBraced {n : Nat} {cs name rest : List Char}
    (h : readBraced f n cs = some (name, rest)) : rest <:+ cs := by
  fun_induction readBraced f n cs generalizing name with
  | case1 => simp at h
  | case2 => simp at h
  | case3 n cs r hs =>
    cases h
    exact (isBehind_of_skip hs).suffix
  | case4 n cs c r _ hs ih =>
    obtain ⟨⟨name', rest'⟩, hr, heq⟩ := Option.map_eq_some_iff.1 h
    cases heq
    exact (ih hr).trans (isBehind_of_skip hs).suffix

theorem suffix_of_readCodePoint {n : Nat} {cs rest : List Char} {p : Primitive}
    (h : readCodePoint f n cs = some (p, rest)) : rest <:+ cs := by
  unfold readCodePoint at h
  split at h
  · cases h
  · rename_i r hs
    split at h
    · rename_i hr
      obtain ⟨c, -, heq⟩ := Option.map_eq_some_iff.1 h
      cases heq
      exact (skip_suffix f _).trans ((suffix_of_readBraced hr).trans (isBehind_of_skip hs).suffix)
    · cases h
  · split at h
    · rename_i hr
      obtain ⟨c, -, heq⟩ := Option.map_eq_some_iff.1 h
      cases heq
      exact (suffix_of_readHexDigits hr).trans (skip_suffix f cs)
    · cases h

theorem suffix_of_readProperty {b : Bool} {cs rest : List Char} {p : Primitive}
    (h : readProperty d f b cs = some (p, rest)) : rest <:+ cs := by
  simp only [readProperty] at h
  split at h
  · rename_i hfound
    split at h
    · obtain ⟨s, -, heq⟩ := Option.map_eq_some_iff.1 h
      cases heq
      split at hfound
      · cases hfound
      · rename_i hs
        split at hfound
        · rename_i hr
          obtain ⟨s, -, heq⟩ := Option.map_eq_some_iff.1 hfound
          cases heq
          exact (suffix_of_readBraced hr).trans (isBehind_of_skip hs).suffix
        · cases hfound
      · rename_i hs
        split at hfound
        · cases hfound
        · obtain ⟨s, -, heq⟩ := Option.map_eq_some_iff.1 hfound
          cases heq
          exact (isBehind_of_skip hs).suffix
    · cases h
  · cases h

theorem suffix_of_readBoundaryName {n : Nat} {cs name rest : List Char}
    (h : readBoundaryName f n cs = some (name, rest)) : rest <:+ cs := by
  fun_induction readBoundaryName f n cs generalizing name with
  | case1 => simp at h
  | case2 n r =>
    cases h
    exact List.suffix_cons _ _
  | case3 n c r _ hc ih =>
    obtain ⟨⟨name', rest'⟩, hr, heq⟩ := Option.map_eq_some_iff.1 h
    cases heq
    exact (ih hr).trans ((skip_suffix f r).trans (List.suffix_cons c r))
  | case4 => simp at h
  | case5 => simp at h

theorem suffix_of_readBoundary {cs rest : List Char} {p : Primitive}
    (h : readBoundary f cs = some (p, rest)) : rest <:+ cs := by
  unfold readBoundary at h
  split at h
  · rename_i r
    split at h
    · cases h
    · rename_i c r' hs
      split_ifs at h
      · split at h
        · rename_i hr
          obtain ⟨l, -, heq⟩ := Option.map_eq_some_iff.1 h
          cases heq
          refine (suffix_of_readBoundaryName hr).trans ?_
          rw [← hs]
          exact (skip_suffix f r).trans (List.suffix_cons _ r)
        · cases h
      · cases h
        exact List.suffix_rfl
  · cases h
    exact List.suffix_rfl

theorem eq_of_readClass {b : Bool} {s : CharSet} {cs rest : List Char} {p : Primitive}
    (h : readClass f b s cs = some (p, rest)) : rest = cs := by
  obtain ⟨s, -, heq⟩ := Option.map_eq_some_iff.1 h
  cases heq
  rfl

theorem isBehind_of_readEscape {cs rest : List Char} {p : Primitive}
    (h : readEscape d f cs = some (p, rest)) : IsBehind rest cs := by
  unfold readEscape at h
  split at h
  · cases h
  all_goals refine .of_cons _ ?_
  all_goals first
    | exact suffix_of_readCodePoint h
    | exact suffix_of_readProperty h
    | exact suffix_of_readBoundary h
    | exact eq_of_readClass h ▸ List.suffix_rfl
    | (cases h; exact List.suffix_rfl)
    | (split_ifs at h; cases h; exact List.suffix_rfl)

/-! ### Bracket classes -/

theorem isBehind_of_readMember {cs rest : List Char} {p : Primitive}
    (h : readMember d f cs = some (p, rest)) : IsBehind rest cs := by
  unfold readMember at h
  split at h
  · cases h
  · exact .of_cons _ (isBehind_of_readEscape h).suffix
  · cases h
    exact .of_cons _ List.suffix_rfl

theorem suffix_of_readRangeEnd {first : Char} {cs rest : List Char} {s : CharSet}
    (h : readRangeEnd d f first cs = some (s, rest)) : rest <:+ cs := by
  unfold readRangeEnd at h
  split at h
  · rename_i hm
    split at h
    · split_ifs at h
      cases h
      exact (isBehind_of_readMember hm).suffix.trans (skip_suffix f cs)
    · cases h
  · cases h

theorem isBehind_of_readRange {cs rest : List Char} {s : CharSet}
    (h : readRange d f cs = some (s, rest)) : IsBehind rest cs := by
  unfold readRange at h
  split at h
  · cases h
  · rename_i p mid hm
    refine .suffix_trans ?_ (isBehind_of_readMember hm)
    split at h
    · cases h
    · rename_i r hs
      split at h
      · obtain ⟨s, -, heq⟩ := Option.map_eq_some_iff.1 h
        cases heq
        exact hs ▸ skip_suffix f mid
      · obtain ⟨s, -, heq⟩ := Option.map_eq_some_iff.1 h
        cases heq
        exact hs ▸ skip_suffix f mid
      · obtain ⟨first, -, h⟩ := Option.bind_eq_some_iff.1 h
        exact (suffix_of_readRangeEnd h).trans (isBehind_of_skip hs).suffix
    · obtain ⟨s, -, heq⟩ := Option.map_eq_some_iff.1 h
      cases heq
      exact skip_suffix f mid

theorem suffix_of_splitAtChar {mark : Char} {cs a b : List Char}
    (h : splitAtChar mark cs = some (a, b)) : b <:+ cs := by
  rw [(eq_of_splitAtChar h).1]
  exact (List.suffix_cons mark b).trans (List.suffix_append a _)

/-- Takes a caret off the front, with the blanks around it. -/
def Flags.takeCaret (f : Flags) (cs : List Char) : Bool × List Char :=
  match f.skip cs with
  | '^' :: r => (true, f.skip r)
  | cs => (false, cs)

theorem takeCaret_suffix (f : Flags) (cs : List Char) : (f.takeCaret cs).2 <:+ cs := by
  unfold Flags.takeCaret
  split
  · rename_i hs
    exact (skip_suffix f _).trans (isBehind_of_skip hs).suffix
  · exact skip_suffix f cs

theorem readAsciiClass_colon (r : List Char) :
    readAsciiClass (':' :: r) =
      match splitAtChar ':' (Flags.initial.takeCaret r).2 with
      | some (name, ']' :: rest) =>
        (CharSet.asciiClass? (String.ofList name)).map fun ranges =>
          ((Flags.initial.takeCaret r).1, .ofRanges ranges, rest)
      | _ => none := rfl

theorem readOpening_eq (f : Flags) (cs : List Char) :
    readOpening f cs =
      match readHyphens f (f.takeCaret cs).2.length (f.takeCaret cs).2 with
      | (true, rest) => ((f.takeCaret cs).1, .single '-', rest)
      | (false, ']' :: r) => ((f.takeCaret cs).1, .single ']', f.skip r)
      | (false, r) => ((f.takeCaret cs).1, .empty, r) := rfl

theorem suffix_of_readAsciiClass {cs rest : List Char} {b : Bool} {s : CharSet}
    (h : readAsciiClass cs = some (b, s, rest)) : rest <:+ cs := by
  unfold readAsciiClass at h
  split at h
  · rename_i r
    change readAsciiClass (':' :: r) = _ at h
    rw [readAsciiClass_colon] at h
    split at h
    · rename_i hsplit
      obtain ⟨ranges, -, heq⟩ := Option.map_eq_some_iff.1 h
      cases heq
      exact ((List.suffix_cons _ _).trans (suffix_of_splitAtChar hsplit)).trans
        ((takeCaret_suffix _ r).trans (List.suffix_cons _ r))
    · cases h
  · cases h

theorem readHyphens_suffix (f : Flags) (n : Nat) (cs : List Char) :
    (readHyphens f n cs).2 <:+ cs := by
  fun_induction readHyphens f n cs with
  | case1 => exact List.suffix_rfl
  | case2 n r ih => exact ih.trans ((skip_suffix f r).trans (List.suffix_cons _ r))
  | case3 => exact List.suffix_rfl

theorem readOpening_suffix (f : Flags) (cs : List Char) : (readOpening f cs).2.2 <:+ cs := by
  have hcaret := takeCaret_suffix f cs
  have hhyphens := readHyphens_suffix f (f.takeCaret cs).2.length (f.takeCaret cs).2
  rw [readOpening_eq]
  split
  · rename_i hh
    rw [hh] at hhyphens
    exact hhyphens.trans hcaret
  · rename_i r hh
    rw [hh] at hhyphens
    exact ((skip_suffix f r).trans (List.suffix_cons _ r)).trans (hhyphens.trans hcaret)
  · rename_i hh
    rw [hh] at hhyphens
    exact hhyphens.trans hcaret

theorem isBehind_of_readSet {n : Nat} {pending : Option (SetOp × CharSet)} {acc s : CharSet}
    {cs rest : List Char} (h : readSet d f n pending acc cs = some (s, rest)) :
    IsBehind rest cs := by
  fun_induction readSet d f n pending acc cs generalizing s rest with
  | case3 n pending acc cs r hs =>
    cases h
    exact isBehind_of_skip hs
  | case4 n pending acc cs r hs negated s' mid hclass _ _ ih =>
    have hmid := suffix_of_readAsciiClass hclass
    exact .suffix_trans ((ih h).suffix.trans hmid) (isBehind_of_skip hs)
  | case6 n pending acc cs r hs _ negated first inner hopening s' mid hset _ _ ihset ih =>
    have hinner := readOpening_suffix f r
    rw [hopening] at hinner
    exact .suffix_trans (((ih h).suffix.trans (ihset hset).suffix).trans hinner)
      (isBehind_of_skip hs)
  | case9 n pending acc cs r hs ih | case10 n pending acc cs r hs ih
  | case11 n pending acc cs r hs ih =>
    exact .suffix_trans ((ih h).suffix.trans (List.suffix_cons _ r)) (isBehind_of_skip hs)
  | case12 n pending acc cs s' mid _ _ _ _ _ _ hrange ih =>
    exact (IsBehind.suffix_trans (ih h).suffix (isBehind_of_readRange hrange)).trans_suffix
      (skip_suffix f cs)
  | _ => simp at h

theorem suffix_of_readBracket {cs rest : List Char} {s : CharSet}
    (h : readBracket d f cs = some (s, rest)) : rest <:+ cs := by
  have hinner := readOpening_suffix f cs
  unfold readBracket at h
  split at h
  rename_i hopening
  rw [hopening] at hinner
  split at h
  · rename_i hset
    obtain ⟨s, -, heq⟩ := Option.map_eq_some_iff.1 h
    cases heq
    exact (isBehind_of_readSet hset).suffix.trans hinner
  · cases h

/-! ### Groups and repetitions -/

/-- What is left behind the head of a group. -/
def GroupHead.rest : GroupHead → List Char
  | setting _ rest => rest
  | body _ _ rest => rest

theorem isBehind_of_readFlags {names : List (List Char)} {f : Flags} {seen cs : List Char}
    {off hyphen : Bool} {g : GroupHead} (h : readFlags names f seen off hyphen cs = some g) :
    IsBehind g.rest cs := by
  fun_induction readFlags names f seen off hyphen cs with
  | case3 f seen off hyphen c r _ _ | case5 f seen off hyphen c r _ _ _ =>
    cases h
    exact .of_cons c List.suffix_rfl
  | case7 f seen off hyphen c r _ _ _ _ ih | case9 f seen off hyphen c r _ _ _ _ _ _ ih =>
    exact .of_cons c (ih h).suffix
  | _ => simp at h

theorem suffix_of_readGroupName {names names' : List (List Char)} {cs rest : List Char}
    (h : readGroupName names cs = some (names', rest)) : rest <:+ cs := by
  unfold readGroupName at h
  split at h
  · rename_i hsplit
    split_ifs at h
    cases h
    exact suffix_of_splitAtChar hsplit
  · cases h

theorem suffix_of_readGroupHead {names : List (List Char)} {f : Flags} {cs : List Char}
    {g : GroupHead} (h : readGroupHead f names cs = some g) : g.rest <:+ f.skip cs := by
  unfold readGroupHead at h
  split at h
  any_goals cases h; done
  · rename_i hs
    obtain ⟨⟨names', rest⟩, hname, rfl⟩ := Option.map_eq_some_iff.1 h
    exact hs ▸ (suffix_of_readGroupName hname).trans (List.suffix_append ['?', 'P', '<'] _)
  · rename_i hs
    obtain ⟨⟨names', rest⟩, hname, rfl⟩ := Option.map_eq_some_iff.1 h
    exact hs ▸ (suffix_of_readGroupName hname).trans (List.suffix_append ['?', '<'] _)
  · rename_i hs
    exact hs ▸ (isBehind_of_readFlags h).suffix.trans (List.suffix_cons '?' _)
  · cases h
    exact List.suffix_rfl

theorem readDigits_suffix (f : Flags) (n : Nat) (cs : List Char) :
    (readDigits f n cs).2 <:+ cs := by
  fun_induction readDigits f n cs with
  | case1 => exact List.suffix_rfl
  | case2 => exact List.suffix_rfl
  | case3 n c r _ ds rest hd ih =>
    rw [hd] at ih
    exact ih.trans ((skip_suffix f r).trans (List.suffix_cons c r))
  | case4 => exact List.suffix_rfl

theorem suffix_of_readCount {cs rest : List Char} {n : Nat}
    (h : readCount f cs = some (n, rest)) : rest <:+ cs := by
  have hdigits := readDigits_suffix f cs.length (cs.dropWhile Unicode.isWhiteSpace)
  unfold readCount at h
  split at h
  rename_i ds mid hd
  rw [hd] at hdigits
  split at h
  · cases h
  · simp only at h
    split_ifs at h
    cases h
    exact (skip_suffix f _).trans ((List.dropWhile_suffix _).trans
      (hdigits.trans (List.dropWhile_suffix _)))

theorem isBehind_of_closeCounts {least n : Nat} {most m : Option Nat} {cs rest : List Char}
    (h : closeCounts f least most cs = some (n, m, rest)) : IsBehind rest cs := by
  unfold closeCounts at h
  split at h
  · rename_i r
    refine .of_cons _ ?_
    split at h
    · rename_i hs
      cases h
      exact (isBehind_of_skip hs).suffix
    · cases h
      exact skip_suffix f r
  · cases h

theorem suffix_of_readCounts {n : Nat} {m : Option Nat} {cs rest : List Char}
    (h : readCounts f cs = some (n, m, rest)) : rest <:+ cs := by
  unfold readCounts at h
  split at h
  · cases h
  · rename_i least r hcount
    have hr : r <:+ cs :=
      ((List.suffix_cons ',' r).trans (suffix_of_readCount hcount)).trans (skip_suffix f cs)
    split at h
    · rename_i hs
      exact (isBehind_of_closeCounts h).suffix.trans ((hs ▸ skip_suffix f r).trans hr)
    · split at h
      · rename_i hmost
        split_ifs at h
        exact (isBehind_of_closeCounts h).suffix.trans
          ((suffix_of_readCount hmost).trans ((skip_suffix f r).trans hr))
      · cases h
  · rename_i hcount
    exact (isBehind_of_closeCounts h).suffix.trans
      ((suffix_of_readCount hcount).trans (skip_suffix f cs))

/-! ### Alternatives -/

theorem dropLazy_suffix (cs : List Char) : dropLazy cs <:+ cs := by
  unfold dropLazy
  split
  · exact List.suffix_cons _ _
  · exact List.suffix_rfl

theorem isBehind_of_readAtom {cs rest : List Char} {r : Regex}
    (h : readAtom d f cs = some (r, rest)) : IsBehind rest cs := by
  unfold readAtom at h
  split at h
  · cases h
  · obtain ⟨⟨p, mid⟩, hescape, h⟩ := Option.bind_eq_some_iff.1 h
    obtain ⟨r, -, heq⟩ := Option.map_eq_some_iff.1 h
    cases heq
    exact .of_cons _ (isBehind_of_readEscape hescape).suffix
  · obtain ⟨⟨s, mid⟩, hbracket, heq⟩ := Option.map_eq_some_iff.1 h
    cases heq
    exact .of_cons _ (suffix_of_readBracket hbracket)
  · obtain ⟨s, -, heq⟩ := Option.map_eq_some_iff.1 h
    cases heq
    exact .of_cons _ List.suffix_rfl
  all_goals
    cases h
    exact .of_cons _ List.suffix_rfl

theorem suffix_of_readBody {n : Nat} {branches : List Regex} {items : List Item} {s s' : Reading}
    {r : Regex} (h : readBody d n branches items s = some (r, s')) : s'.rest <:+ s.rest := by
  fun_induction readBody d n branches items s generalizing r s' with
  | case2 n branches items s hs =>
    cases h
    exact List.nil_suffix
  | case3 n branches items s cs hs =>
    cases h
    exact hs ▸ skip_suffix _ _
  | case4 n branches items s cs hs ih => exact (ih h).trans (isBehind_of_skip hs).suffix
  | case6 n branches items s cs hs f mid hhead ih =>
    have hmid : mid <:+ cs := (suffix_of_readGroupHead hhead).trans (skip_suffix _ _)
    exact (ih h).trans (hmid.trans (isBehind_of_skip hs).suffix)
  | case7 n branches items s cs hs f names mid hhead body f' names' cs' hbody ihbody ih =>
    have hmid : mid <:+ cs := (suffix_of_readGroupHead hhead).trans (skip_suffix _ _)
    have hinner : ')' :: cs' <:+ mid := ihbody hbody
    exact (ih h).trans (((List.suffix_cons ')' cs').trans hinner).trans
      (hmid.trans (isBehind_of_skip hs).suffix))
  | case9 n branches items s cs hs ih | case10 n branches items s cs hs ih
  | case11 n branches items s cs hs ih =>
    obtain ⟨items', -, h⟩ := Option.bind_eq_some_iff.1 h
    exact (ih items' h).trans ((dropLazy_suffix cs).trans (isBehind_of_skip hs).suffix)
  | case12 n branches items s cs hs least most mid hcounts ih =>
    obtain ⟨items', -, h⟩ := Option.bind_eq_some_iff.1 h
    exact (ih items' h).trans ((suffix_of_readCounts hcounts).trans (isBehind_of_skip hs).suffix)
  | case14 n branches items s _ _ _ _ _ _ _ _ r' mid hatom ih =>
    exact (ih h).trans ((isBehind_of_readAtom hatom).suffix.trans (skip_suffix _ _))
  | _ => simp at h

end OrderedChoice.Regex
