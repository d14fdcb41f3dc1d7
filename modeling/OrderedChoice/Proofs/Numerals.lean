import Mathlib.Data.Nat.Digits.Defs
import OrderedChoice.Text.Numeral

/-!
# What numerals denote

A decimal numeral is a list of digits, most significant first, and denotes the number that has
these digits.  The readers accept exactly the numerals.

* `IsNumeral` and `Denotes` say what a numeral denotes, without a sign and with one;
* `readNat?_eq_some_iff`, `readInt?_eq_some_iff` and `readInt64?_eq_some_iff`: reading a numeral
  gives what it denotes, and nothing else can be read.
-/

namespace OrderedChoice

/-- The characters are decimal digits, at least one. -/
structure AreDigits (cs : List Char) (ds : List Nat) : Prop where
  ne_nil : ds ≠ []
  lt_ten : ∀ d ∈ ds, d < 10
  eq_map : cs = ds.map Nat.digitChar

/-- The characters are the digits of a number, most significant first. -/
def IsNumeral (cs : List Char) (n : Nat) : Prop :=
  ∃ ds, AreDigits cs ds ∧ n = Nat.ofDigits 10 ds.reverse

/-- The characters are a numeral of an integer, with or without a sign. -/
inductive Denotes : List Char → Int → Prop
  | unsigned {cs : List Char} {n : Nat} (h : IsNumeral cs n) : Denotes cs n
  | plus {cs : List Char} {n : Nat} (h : IsNumeral cs n) : Denotes ('+' :: cs) n
  | minus {cs : List Char} {n : Nat} (h : IsNumeral cs n) : Denotes ('-' :: cs) (-n)

/-! ### Digits -/

theorem digitValue?_eq_some_iff {c : Char} {d : Nat} :
    digitValue? c = some d ↔ d < 10 ∧ c = Nat.digitChar d := by
  constructor
  · intro h
    unfold digitValue? at h
    split_ifs at h with hc
    have hlow : 48 ≤ c.toNat := hc.1
    have hhigh : c.toNat ≤ 57 := hc.2
    obtain rfl : c.toNat - 48 = d := Option.some.inj h
    have hdigits : ∀ d < 10, (Nat.digitChar d).toNat = 48 + d := by decide
    refine ⟨by omega, Char.toNat_inj.1 ?_⟩
    rw [hdigits _ (by omega)]
    omega
  · rintro ⟨hd, rfl⟩
    exact digitValue?_digitChar hd

/-- Reading goes on from what has been read before the first of the digits. -/
theorem readDigitsFrom_map {ds : List Nat} (hds : ∀ d ∈ ds, d < 10) (acc : Nat) :
    readDigitsFrom acc (ds.map Nat.digitChar) =
      some (acc * 10 ^ ds.length + Nat.ofDigits 10 ds.reverse) := by
  induction ds generalizing acc with
  | nil => simp [readDigitsFrom]
  | cons d ds ih =>
    have hd : d < 10 := hds d (by simp)
    have hrest : ∀ e ∈ ds, e < 10 := fun e he => hds e (by simp [he])
    simp only [List.map_cons, readDigitsFrom, digitValue?_digitChar hd, ih hrest,
      List.reverse_cons, Nat.ofDigits_append, Nat.ofDigits_singleton, List.length_reverse,
      List.length_cons]
    congr 1
    ring

theorem exists_digits_of_readDigitsFrom {cs : List Char} {acc n : Nat}
    (h : readDigitsFrom acc cs = some n) :
    ∃ ds : List Nat, (∀ d ∈ ds, d < 10) ∧ cs = ds.map Nat.digitChar := by
  induction cs generalizing acc with
  | nil => exact ⟨[], by simp⟩
  | cons c cs ih =>
    rw [readDigitsFrom] at h
    split at h
    · rename_i d hd
      obtain ⟨hlt, rfl⟩ := digitValue?_eq_some_iff.1 hd
      obtain ⟨ds, hds, rfl⟩ := ih h
      exact ⟨d :: ds, by simpa using ⟨hlt, hds⟩, rfl⟩
    · cases h

/-- What can be read as a natural number are the numerals without a sign. -/
theorem readNat?_eq_some_iff {cs : List Char} {n : Nat} :
    readNat? cs = some n ↔ IsNumeral cs n := by
  have hread : ∀ ds : List Nat, (∀ d ∈ ds, d < 10) → ds ≠ [] →
      readNat? (ds.map Nat.digitChar) = some (Nat.ofDigits 10 ds.reverse) := by
    intro ds hds hne
    cases ds with
    | nil => exact absurd rfl hne
    | cons d ds =>
      have h := readDigitsFrom_map hds 0
      rw [Nat.zero_mul, Nat.zero_add] at h
      exact h
  constructor
  · intro h
    cases cs with
    | nil => cases h
    | cons c cs =>
      obtain ⟨ds, hds, hcs⟩ := exists_digits_of_readDigitsFrom (show readDigitsFrom 0 _ = _ from h)
      have hne : ds ≠ [] := by
        rintro rfl
        cases hcs
      rw [hcs, hread ds hds hne] at h
      exact ⟨ds, ⟨hne, hds, hcs⟩, (Option.some.inj h).symm⟩
  · rintro ⟨ds, ⟨hne, hds, rfl⟩, rfl⟩
    exact hread ds hds hne

/-! ### Signs -/

theorem readInt?_minus (cs : List Char) :
    readInt? ('-' :: cs) = (readNat? cs).map fun n : Nat => -(n : Int) := by
  rw [readInt?]
  cases readNat? cs <;> rfl

theorem readInt?_plus (cs : List Char) :
    readInt? ('+' :: cs) = (readNat? cs).map fun n : Nat => (n : Int) :=
  rfl

/-- No digit is a sign. -/
theorem readInt?_of_isNumeral {cs : List Char} {n : Nat} (h : IsNumeral cs n) :
    readInt? cs = some n := by
  have hread := readNat?_eq_some_iff.2 h
  obtain ⟨ds, ⟨hne, hds, rfl⟩, -⟩ := h
  cases ds with
  | nil => exact absurd rfl hne
  | cons d ds =>
    have hsign : ∀ d < 10, Nat.digitChar d ≠ '-' ∧ Nat.digitChar d ≠ '+' := by decide
    obtain ⟨hminus, hplus⟩ := hsign d (hds d (by simp))
    rw [List.map_cons] at hread ⊢
    simp [readInt?, hminus, hplus, hread]

/-- What can be read as an integer are the numerals. -/
theorem readInt?_eq_some_iff {cs : List Char} {i : Int} :
    readInt? cs = some i ↔ Denotes cs i := by
  constructor
  · intro h
    unfold readInt? at h
    split at h
    · rename_i cs
      change readInt? ('-' :: cs) = some i at h
      rw [readInt?_minus] at h
      obtain ⟨n, hn, rfl⟩ := Option.map_eq_some_iff.1 h
      exact .minus (readNat?_eq_some_iff.1 hn)
    · obtain ⟨n, hn, rfl⟩ := Option.map_eq_some_iff.1 h
      exact .plus (readNat?_eq_some_iff.1 hn)
    · obtain ⟨n, hn, rfl⟩ := Option.map_eq_some_iff.1 h
      exact .unsigned (readNat?_eq_some_iff.1 hn)
  · rintro (h | h | h)
    · exact readInt?_of_isNumeral h
    · rw [readInt?_plus, readNat?_eq_some_iff.2 h]
      rfl
    · rw [readInt?_minus, readNat?_eq_some_iff.2 h]
      rfl

theorem toInt64?_eq_some_iff {i : Int} {n : Int64} : toInt64? i = some n ↔ n.toInt = i := by
  unfold toInt64?
  constructor
  · intro h
    split_ifs at h with hi
    cases h
    exact Int64.toInt_ofInt_of_le hi.1 (Int.lt_add_one_of_le hi.2)
  · rintro rfl
    rw [if_pos ⟨n.minValue_le_toInt, n.toInt_le⟩, Int64.ofInt_toInt]

/-- What can be read as a 64-bit integer are the numerals that denote one. -/
theorem readInt64?_eq_some_iff {cs : List Char} {n : Int64} :
    readInt64? cs = some n ↔ Denotes cs n.toInt := by
  simp [readInt64?, Option.bind_eq_some_iff, readInt?_eq_some_iff, toInt64?_eq_some_iff]

end OrderedChoice
