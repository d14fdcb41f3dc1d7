import Mathlib.Data.List.Basic
import Mathlib.Data.List.Induction
import OrderedChoice.Proofs.Spelling

/-!
# How patterns are written

A pattern symbol is written as its class with the mark of a quantifier behind it.  The last
character of a text is such a mark if it is one of three, there is something before it, and it is
not escaped, that is, if the backslashes before it are even in number.

* `endsUnescaped_iff`: counting backslashes from the end tells whether they are even in number;
* `splitQuantifier_marked` and `quantifier_ne_one_iff`: what a mark is taken off, and where there is
  one.  Where nothing is escaped it is taken off as in a reference;
* `pattern_splits`: a pattern symbol is its class and its mark, and a class with a mark is read as
  that symbol, or refused as the class alone is.
-/

namespace OrderedChoice

open OrderedChoice.Symbol

/-! ### Backslashes at the end -/

/-- The text ends in an even number of backslashes, possibly none. -/
def EndsEven (cs : List Char) : Prop :=
  ∃ front n, cs = front ++ List.replicate (2 * n) '\\' ∧ front.getLast? ≠ some '\\'

/-- At the end of every text there are so many backslashes and no more. -/
theorem exists_backslashes (cs : List Char) :
    ∃ front n, cs = front ++ List.replicate n '\\' ∧ front.getLast? ≠ some '\\' := by
  induction cs using List.reverseRecOn with
  | nil => exact ⟨[], 0, rfl, by simp⟩
  | append_singleton cs c ih =>
    by_cases hc : c = '\\'
    · obtain ⟨front, n, hcs, hfront⟩ := ih
      refine ⟨front, n + 1, ?_, hfront⟩
      rw [hc, hcs, List.append_assoc, List.replicate_succ']
    · exact ⟨cs ++ [c], 0, by simp, by simpa using hc⟩

theorem length_takeWhile_backslashes {front : List Char} (h : front.getLast? ≠ some '\\')
    (n : Nat) :
    ((front ++ List.replicate n '\\').reverse.takeWhile (· == '\\')).length = n := by
  have hfront : front.reverse.takeWhile (· == '\\') = [] := by
    rw [← List.head?_reverse] at h
    cases hr : front.reverse with
    | nil => rfl
    | cons c cs =>
      have hc : c ≠ '\\' := by simpa [hr] using h
      simp [hc]
  rw [List.reverse_append, List.reverse_replicate, List.takeWhile_append_of_pos (by simp), hfront]
  simp

theorem endsUnescaped_iff {cs : List Char} : endsUnescaped cs = true ↔ EndsEven cs := by
  have hcount : ∀ {front : List Char}, front.getLast? ≠ some '\\' → ∀ n,
      (endsUnescaped (front ++ List.replicate n '\\') = true ↔ n % 2 = 0) := by
    intro front hfront n
    rw [endsUnescaped, length_takeWhile_backslashes hfront, beq_iff_eq]
  constructor
  · intro h
    obtain ⟨front, n, rfl, hfront⟩ := exists_backslashes cs
    have hn : 2 * (n / 2) = n :=
      Nat.mul_div_cancel' (Nat.dvd_of_mod_eq_zero ((hcount hfront n).1 h))
    exact ⟨front, n / 2, by rw [hn], hfront⟩
  · rintro ⟨front, n, rfl, hfront⟩
    exact (hcount hfront (2 * n)).2 (by omega)

/-! ### Marks -/

/-- A mark behind the text would be the mark of its quantifier: there is something that it can
stand behind, and it would not be escaped. -/
def TakesMark (body : List Char) : Prop := body ≠ [] ∧ EndsEven body

/-- The text ends in the mark of a quantifier. -/
def EndsInMark (source : List Char) : Prop :=
  ∃ body mark, source = body ++ [mark] ∧ mark ∈ ['*', '+', '?'] ∧ TakesMark body

theorem isEmpty_or_escaped_iff {body : List Char} :
    (body.isEmpty || !endsUnescaped body) = false ↔ TakesMark body := by
  rw [TakesMark, ← endsUnescaped_iff]
  simp

theorem splitQuantifier_concat {body : List Char} (h : TakesMark body) (last : Char) :
    splitQuantifier (body ++ [last]) = takeQuantifier (body ++ [last]) := by
  simp only [splitQuantifier, takeQuantifier, splitLast_concat, isEmpty_or_escaped_iff.2 h,
    Bool.false_eq_true, ↓reduceIte]
  split
  · rfl
  · rfl
  · rfl
  · split <;> simp_all

theorem splitQuantifier_of_not_takesMark {body : List Char} (h : ¬ TakesMark body) (last : Char) :
    splitQuantifier (body ++ [last]) = (body ++ [last], .one) := by
  rw [← isEmpty_or_escaped_iff, Bool.not_eq_false] at h
  simp only [splitQuantifier, splitLast_concat, h, ↓reduceIte]

theorem exists_mark_of_ne_one {q : Quantifier} (h : q ≠ .one) :
    ∃ mark ∈ ['*', '+', '?'], q.mark.toList = [mark] := by
  cases q with
  | one => exact absurd rfl h
  | zeroOrMore => exact ⟨'*', by decide, rfl⟩
  | oneOrMore => exact ⟨'+', by decide, rfl⟩
  | optional => exact ⟨'?', by decide, rfl⟩

theorem exists_quantifier_of_mark {mark : Char} (h : mark ∈ ['*', '+', '?']) :
    ∃ q : Quantifier, q ≠ .one ∧ q.mark.toList = [mark] := by
  simp only [List.mem_cons, List.not_mem_nil, or_false] at h
  rcases h with rfl | rfl | rfl
  · exact ⟨.zeroOrMore, by decide, rfl⟩
  · exact ⟨.oneOrMore, by decide, rfl⟩
  · exact ⟨.optional, by decide, rfl⟩

/-- **A mark is taken off what it stands behind.** -/
theorem splitQuantifier_marked {body : List Char} (h : TakesMark body) {q : Quantifier}
    (hq : q ≠ .one) : splitQuantifier (body ++ q.mark.toList) = (body, q) := by
  obtain ⟨mark, -, hmark⟩ := exists_mark_of_ne_one hq
  rw [← takeQuantifier_marked hq body, hmark]
  exact splitQuantifier_concat h mark

/-- **A quantifier is taken off exactly where there is a mark.** -/
theorem quantifier_ne_one_iff {source : List Char} :
    (splitQuantifier source).2 ≠ .one ↔ EndsInMark source := by
  constructor
  · intro h
    rcases List.eq_nil_or_concat' source with rfl | ⟨body, last, rfl⟩
    · exact absurd rfl h
    · by_cases hbody : TakesMark body
      · refine ⟨body, last, rfl, ?_, hbody⟩
        rw [splitQuantifier_concat hbody] at h
        by_contra hlast
        rw [takeQuantifier_unmarked hlast] at h
        exact h rfl
      · rw [splitQuantifier_of_not_takesMark hbody] at h
        exact absurd rfl h
  · rintro ⟨body, mark, rfl, hmark, hbody⟩
    obtain ⟨q, hq, hmark⟩ := exists_quantifier_of_mark hmark
    rw [← hmark, splitQuantifier_marked hbody hq]
    exact hq

/-! ### Symbols -/

theorem pattern_eq (source : String) :
    Symbol.pattern source =
      (Pattern.compile (String.ofList (splitQuantifier source.toList).1)).map fun p =>
        ⟨.pattern p, (splitQuantifier source.toList).2, .consume⟩ := by
  unfold Symbol.pattern
  cases h : Pattern.compile (String.ofList (splitQuantifier source.toList).1) with
  | ok p =>
    simp only [h, Except.map]
    rfl
  | error e => simp only [h, Except.map]

/-- **Patterns are read as they are written.**  A symbol that is read from a text has a class and a
quantifier that make up the text, where there is a quantifier exactly if the text ends in a mark.
And a class that a mark can stand behind is read with the mark as it is read alone: as a symbol with
the class and the quantifier, or not at all and for the same reason. -/
theorem pattern_splits :
    (∀ (source : String) (x : Symbol), Symbol.pattern source = .ok x →
      ∃ p q, x = ⟨.pattern p, q, .consume⟩ ∧ Pattern.compile p.source = .ok p ∧
        p.source ++ q.mark = source ∧
        (q ≠ .one ↔ ∃ body mark, source.toList = body ++ [mark] ∧ mark ∈ ['*', '+', '?'] ∧
          body ≠ [] ∧ EndsEven body)) ∧
    ∀ (source : String) (q : Quantifier), source ≠ "" → EndsEven source.toList → q ≠ .one →
      (∀ p, Pattern.compile source = .ok p → p.source = source ∧
        Symbol.pattern (source ++ q.mark) = .ok ⟨.pattern p, q, .consume⟩) ∧
      ∀ e, Pattern.compile source = .error e → Symbol.pattern (source ++ q.mark) = .error e := by
  refine ⟨fun source x h => ?_, fun source q hne heven hq => ?_⟩
  · rw [pattern_eq] at h
    cases hp : Pattern.compile (String.ofList (splitQuantifier source.toList).1) with
    | error e =>
      rw [hp] at h
      cases h
    | ok p =>
      rw [hp] at h
      cases h
      have hsource := ClassPattern.source_of_compile hp
      refine ⟨p, _, rfl, by rw [hsource, hp], ?_, quantifier_ne_one_iff⟩
      apply String.toList_injective
      rw [hsource, String.toList_append, String.toList_ofList, splitQuantifier_append]
  · have hbody : TakesMark source.toList := ⟨by simpa using hne, heven⟩
    have hread : Symbol.pattern (source ++ q.mark) =
        (Pattern.compile source).map fun p => ⟨.pattern p, q, .consume⟩ := by
      rw [pattern_eq, String.toList_append, splitQuantifier_marked hbody hq, String.ofList_toList]
    refine ⟨fun p hp => ⟨ClassPattern.source_of_compile hp, ?_⟩, fun e he => ?_⟩
    · rw [hread, hp]
      rfl
    · rw [hread, he]
      rfl

/-- Behind an escaped backslash a question mark is a mark, behind one that escapes it, it is not. -/
theorem pattern_splits_backslash :
    (∃ p : Pattern, p.source = "\\\\" ∧
      Symbol.pattern "\\\\?" = .ok ⟨.pattern p, .optional, .consume⟩) ∧
    (∃ p : Pattern, p.source ++ "" = "\\?" ∧
      Symbol.pattern "\\?" = .ok ⟨.pattern p, .one, .consume⟩) ∧
    ¬ EndsInMark "\\?".toList := by
  have heven : EndsEven "\\\\".toList := ⟨[], 1, rfl, by simp⟩
  have hclass : Pattern.compile "\\\\" = .ok ⟨"\\\\", _, rfl⟩ := rfl
  have hmarked := (pattern_splits.2 "\\\\" .optional (by decide) heven (by decide)).1 _ hclass
  have hplain : Symbol.pattern "\\?" = .ok ⟨.pattern ⟨"\\?", _, rfl⟩, .one, .consume⟩ := rfl
  obtain ⟨p, q, hx, -, hsource, hmark⟩ := pattern_splits.1 _ _ hplain
  obtain ⟨hkind, rfl, -⟩ := (Symbol.mk.injEq ..).mp hx
  refine ⟨⟨_, hmarked⟩, ⟨p, hsource, ?_⟩, fun h => hmark.2 h rfl⟩
  rw [hplain, hkind]

end OrderedChoice
