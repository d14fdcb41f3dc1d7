/-!
# Positions in a text

A `Position` is a place between two characters of a text: the number of bytes that the text
before it takes in UTF-8, and the characters after it.  Moving on by whole characters keeps the
two in step, so an offset never falls inside a character.
-/

namespace OrderedChoice

/-- The number of bytes of characters in UTF-8. -/
def byteLength : List Char → Nat
  | [] => 0
  | c :: cs => c.utf8Size + byteLength cs

theorem byteLength_append (a b : List Char) :
    byteLength (a ++ b) = byteLength a + byteLength b := by
  induction a with
  | nil => simp [byteLength]
  | cons c a ih => simp [byteLength, ih, Nat.add_assoc]

theorem length_le_byteLength (cs : List Char) : cs.length ≤ byteLength cs := by
  induction cs with
  | nil => simp [byteLength]
  | cons c cs ih =>
    have := Char.utf8Size_pos c
    simp only [List.length_cons, byteLength]
    omega

/-- A place in a text. -/
structure Position where
  /-- The bytes before the place. -/
  offset : Nat
  /-- The characters after it. -/
  rest : List Char
  deriving DecidableEq, Repr

namespace Position

/-- The start of a text. -/
def start (text : List Char) : Position := ⟨0, text⟩

/-- The place `n` characters further on. -/
def advance (p : Position) (n : Nat) : Position :=
  ⟨p.offset + byteLength (p.rest.take n), p.rest.drop n⟩

/-- The characters from `p` to a later place `q`. -/
def textTo (p q : Position) : List Char := p.rest.take (p.rest.length - q.rest.length)

theorem textTo_advance (p : Position) (n : Nat) :
    p.textTo (p.advance n) = p.rest.take n := by
  simp only [textTo, advance, List.length_drop]
  rcases Nat.le_total n p.rest.length with h | h
  · rw [Nat.sub_sub_self h]
  · rw [List.take_of_length_le h, List.take_of_length_le (by omega)]

theorem advance_zero (p : Position) : p.advance 0 = p := by
  simp [advance, byteLength]

theorem advance_advance (p : Position) (m n : Nat) :
    (p.advance m).advance n = p.advance (m + n) := by
  simp only [advance, List.drop_drop, List.take_add, byteLength_append, Nat.add_assoc]

end Position

end OrderedChoice
