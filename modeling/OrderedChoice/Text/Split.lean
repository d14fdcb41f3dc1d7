/-!
# Splitting texts

Cutting a text at the first occurrence of a character, and taking off its last character.
-/

namespace OrderedChoice

/-- The text before and after the first occurrence of a character. -/
def splitAtChar (mark : Char) : List Char → Option (List Char × List Char)
  | [] => none
  | c :: r => if c == mark then some ([], r) else (splitAtChar mark r).map fun (a, b) => (c :: a, b)

theorem eq_of_splitAtChar {mark : Char} {s a b : List Char}
    (h : splitAtChar mark s = some (a, b)) : s = a ++ mark :: b ∧ mark ∉ a := by
  induction s generalizing a with
  | nil => simp [splitAtChar] at h
  | cons c r ih =>
    rw [splitAtChar] at h
    split at h
    · rename_i hc
      obtain ⟨rfl, rfl⟩ : [] = a ∧ r = b := by simpa using h
      simpa using hc
    · rename_i hc
      obtain ⟨⟨a', b'⟩, hr, heq⟩ := Option.map_eq_some_iff.1 h
      obtain ⟨rfl, rfl⟩ : c :: a' = a ∧ b' = b := by simpa using heq
      obtain ⟨rfl, hn⟩ := ih hr
      have hne : mark ≠ c := fun h => hc (by simp [h])
      simp [hn, hne]

theorem splitAtChar_append {mark : Char} {a : List Char} (b : List Char) (h : mark ∉ a) :
    splitAtChar mark (a ++ mark :: b) = some (a, b) := by
  induction a with
  | nil => simp [splitAtChar]
  | cons c a ih =>
    have hc : c ≠ mark := fun hc => h (by simp [hc])
    have ha : mark ∉ a := fun ha => h (by simp [ha])
    simp [splitAtChar, hc, ih ha]

theorem splitAtChar_of_not_mem {mark : Char} {cs : List Char} (h : mark ∉ cs) :
    splitAtChar mark cs = none := by
  induction cs with
  | nil => rfl
  | cons c cs ih =>
    rw [List.mem_cons, not_or] at h
    have hc : (c == mark) = false := beq_eq_false_iff_ne.2 (Ne.symm h.1)
    rw [splitAtChar, hc, ih h.2]
    rfl

/-- The text without its last character, and that character. -/
def splitLast : List Char → Option (List Char × Char)
  | [] => none
  | c :: r =>
    match splitLast r with
    | none => some ([], c)
    | some (body, last) => some (c :: body, last)

theorem splitLast_concat (body : List Char) (last : Char) :
    splitLast (body ++ [last]) = some (body, last) := by
  induction body with
  | nil => rfl
  | cons c body ih => simp [splitLast, ih]

theorem eq_of_splitLast {s body : List Char} {last : Char}
    (h : splitLast s = some (body, last)) : s = body ++ [last] := by
  induction s generalizing body last with
  | nil => simp [splitLast] at h
  | cons c r ih =>
    simp only [splitLast] at h
    split at h
    · rename_i hr
      cases r with
      | nil => simp_all
      | cons d r => simp only [splitLast] at hr; split at hr <;> simp at hr
    · rename_i b l hr
      simp only [Option.some.injEq, Prod.mk.injEq] at h
      obtain ⟨rfl, rfl⟩ := h
      simp [ih hr]

end OrderedChoice
