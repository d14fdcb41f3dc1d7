/-!
# Slices of a text

A text is kept as its bytes in UTF-8, and places in it are told by numbers of bytes.  A slice
between two such numbers is there only if both fall between characters; what is at the start of a
slice is found by looking at its bytes.

* `slice?` is the text between two offsets, if there is one;
* `startsWith` compares bytes, `firstChar?` decodes them.
-/

namespace OrderedChoice

/-- The offset is one between two characters of the text, or at an end of it. -/
def IsBoundary (input : String) (n : Nat) : Prop := (⟨n⟩ : String.Pos.Raw).IsValid input

instance (input : String) (n : Nat) : Decidable (IsBoundary input n) :=
  inferInstanceAs (Decidable (String.Pos.Raw.IsValid input ⟨n⟩))

/-- The slice of a text from one offset to another.  There is none unless both are boundaries and
the first is not after the second. -/
def slice? (input : String) (i j : Nat) : Option String :=
  if h : IsBoundary input i ∧ IsBoundary input j ∧ i ≤ j then
    some (input.slice ⟨⟨i⟩, h.1⟩ ⟨⟨j⟩, h.2.1⟩ h.2.2).copy
  else none

/-- Whether the first bytes of a text are those of another. -/
def startsWith (text rest : String) : Bool :=
  decide ((rest.toByteArray.extract 0 text.utf8ByteSize).data = text.toByteArray.data)

/-- The character that the first bytes of a text encode. -/
def firstChar? (rest : String) : Option Char := rest.toByteArray.utf8DecodeChar? 0

end OrderedChoice
