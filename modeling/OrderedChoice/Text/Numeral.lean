/-!
# Numerals

Decimal numerals over the ten ASCII digits, and hexadecimal digits.  A signed numeral is an
optional `+` or `-` before at least one digit.

* `natDigits` and `intDigits` write numbers, `readNat?` and `readInt?` read them back
  (`readNat?_natDigits`, `readInt?_intDigits`);
* `readInt64?` reads what fits into 64 bits.
-/

namespace OrderedChoice

/-! ### Digits -/

/-- The value of an ASCII digit. -/
def digitValue? (c : Char) : Option Nat :=
  if '0' ≤ c ∧ c ≤ '9' then some (c.toNat - '0'.toNat) else none

/-- The value of a hexadecimal digit. -/
def hexValue? (c : Char) : Option Nat :=
  if '0' ≤ c ∧ c ≤ '9' then some (c.toNat - '0'.toNat)
  else if 'a' ≤ c ∧ c ≤ 'f' then some (c.toNat - 'a'.toNat + 10)
  else if 'A' ≤ c ∧ c ≤ 'F' then some (c.toNat - 'A'.toNat + 10)
  else none

/-! ### Writing -/

/-- A number in decimal digits. -/
def natDigits (n : Nat) : List Char := Nat.toDigits 10 n

/-- A number in decimal digits, with a minus sign if it is negative. -/
def intDigits : Int → List Char
  | .ofNat n => natDigits n
  | .negSucc n => '-' :: natDigits (n + 1)

/-- A number in hexadecimal digits. -/
def hexDigits (n : Nat) : List Char := Nat.toDigits 16 n

/-- The text of a natural number. -/
def natText (n : Nat) : String := String.ofList (natDigits n)

/-- The text of an integer. -/
def intText (i : Int) : String := String.ofList (intDigits i)

/-! ### Reading -/

/-- Reads digits after those that make up `acc`. -/
def readDigitsFrom (acc : Nat) : List Char → Option Nat
  | [] => some acc
  | c :: cs =>
    match digitValue? c with
    | some d => readDigitsFrom (10 * acc + d) cs
    | none => none

/-- A numeral without a sign: digits, at least one. -/
def readNat? : List Char → Option Nat
  | [] => none
  | cs => readDigitsFrom 0 cs

/-- A numeral with an optional sign. -/
def readInt? : List Char → Option Int
  | '-' :: cs => (readNat? cs).map fun n => -(n : Int)
  | '+' :: cs => (readNat? cs).map Int.ofNat
  | cs => (readNat? cs).map Int.ofNat

/-- The 64-bit integer with a value, if there is one. -/
def toInt64? (i : Int) : Option Int64 :=
  if Int64.minValue.toInt ≤ i ∧ i ≤ Int64.maxValue.toInt then some (Int64.ofInt i) else none

/-- A signed numeral whose value fits into 64 bits. -/
def readInt64? (cs : List Char) : Option Int64 := (readInt? cs).bind toInt64?

/-! ### What is written reads back -/

theorem digitValue?_digitChar {d : Nat} (h : d < 10) : digitValue? (Nat.digitChar d) = some d := by
  have : ∀ d < 10, digitValue? (Nat.digitChar d) = some d := by decide
  exact this d h

theorem readDigitsFrom_append (acc : Nat) (a b : List Char) :
    readDigitsFrom acc (a ++ b) = (readDigitsFrom acc a).bind fun n => readDigitsFrom n b := by
  induction a generalizing acc with
  | nil => rfl
  | cons c a ih =>
    simp only [List.cons_append, readDigitsFrom]
    split <;> simp [ih]

theorem natDigits_of_lt {n : Nat} (h : n < 10) : natDigits n = [Nat.digitChar n] :=
  Nat.toDigits_of_lt_base h

theorem natDigits_of_le {n : Nat} (h : 10 ≤ n) :
    natDigits n = natDigits (n / 10) ++ [Nat.digitChar (n % 10)] :=
  Nat.toDigits_of_base_le (by omega) h

theorem readDigitsFrom_natDigits (n : Nat) : readDigitsFrom 0 (natDigits n) = some n := by
  induction n using Nat.strongRecOn with
  | ind n ih =>
    rcases Nat.lt_or_ge n 10 with h | h
    · simp [natDigits_of_lt h, readDigitsFrom, digitValue?_digitChar h]
    · rw [natDigits_of_le h, readDigitsFrom_append, ih (n / 10) (by omega)]
      have hd := digitValue?_digitChar (Nat.mod_lt n (by omega : 0 < 10))
      simp only [Option.bind_some, readDigitsFrom, hd, Option.some.injEq]
      omega

theorem natDigits_ne_nil (n : Nat) : natDigits n ≠ [] := by
  rcases Nat.lt_or_ge n 10 with h | h
  · simp [natDigits_of_lt h]
  · simp [natDigits_of_le h]

theorem readNat?_natDigits (n : Nat) : readNat? (natDigits n) = some n := by
  have h := readDigitsFrom_natDigits n
  cases hd : natDigits n with
  | nil => exact absurd hd (natDigits_ne_nil n)
  | cons c cs => simpa [readNat?, hd] using h

theorem exists_digitChar_of_mem_toDigits {b n : Nat} {c : Char} (hb : 1 < b)
    (h : c ∈ Nat.toDigits b n) : ∃ d < b, c = Nat.digitChar d := by
  induction n using Nat.strongRecOn with
  | ind n ih =>
    rcases Nat.lt_or_ge n b with hn | hn
    · rw [Nat.toDigits_of_lt_base hn, List.mem_singleton] at h
      exact ⟨n, hn, h⟩
    · rw [Nat.toDigits_of_base_le hb hn, List.mem_append, List.mem_singleton] at h
      rcases h with h | h
      · exact ih (n / b) (Nat.div_lt_self (by omega) hb) h
      · exact ⟨n % b, Nat.mod_lt n (by omega), h⟩

theorem exists_digitChar_of_mem_natDigits {n : Nat} {c : Char} (h : c ∈ natDigits n) :
    ∃ d < 10, c = Nat.digitChar d := exists_digitChar_of_mem_toDigits (by decide) h

theorem digitValue?_isSome_of_mem_natDigits {n : Nat} {c : Char} (h : c ∈ natDigits n) :
    (digitValue? c).isSome = true := by
  obtain ⟨d, hd, rfl⟩ := exists_digitChar_of_mem_natDigits h
  rw [digitValue?_digitChar hd]
  rfl

theorem readInt?_intDigits (i : Int) : readInt? (intDigits i) = some i := by
  cases i with
  | ofNat n =>
    have hr := readNat?_natDigits n
    have hd : ∀ c ∈ natDigits n, (digitValue? c).isSome = true :=
      fun c => digitValue?_isSome_of_mem_natDigits
    simp only [intDigits]
    cases h : natDigits n with
    | nil => exact absurd h (natDigits_ne_nil n)
    | cons c cs =>
      rw [h] at hr hd
      have hc := hd c (by simp)
      unfold readInt?
      split
      · rename_i heq
        cases heq
        exact absurd hc (by decide)
      · rename_i heq
        cases heq
        exact absurd hc (by decide)
      · simp [hr]
  | negSucc n =>
    change (readNat? (natDigits (n + 1))).map (fun m => -(m : Int)) = some (Int.negSucc n)
    rw [readNat?_natDigits]
    simp [Int.negSucc_eq]

end OrderedChoice
