/-!
# Binary floating-point numbers

`Binary64` is a 64-bit floating-point number given by its bits, so that two numbers which are
not equal as numbers, or not numbers at all, remain apart.  Comparison and arithmetic are those
of `Float`.

* `Binary64.magnitude` takes a finite number apart into `mantissa · 2 ^ exponent`.
-/

namespace OrderedChoice

/-- A floating-point number, by its bits. -/
structure Binary64 where
  bits : UInt64
  deriving DecidableEq, Repr, Inhabited

namespace Binary64

/-- The number as one to calculate with. -/
def toFloat (x : Binary64) : Float := Float.ofBits x.bits

/-- The bits of a calculated number. -/
def ofFloat (x : Float) : Binary64 := ⟨x.toBits⟩

/-- Equality of numbers: what is not a number differs from itself, and the zeros are equal. -/
def numEq (x y : Binary64) : Bool := x.toFloat == y.toFloat

/-- Whether the sign bit is set. -/
def isNegative (x : Binary64) : Bool := x.bits >>> 63 == 1

/-- The eleven bits of the exponent. -/
def exponentField (x : Binary64) : Nat := x.bits.toNat >>> 52 % (1 <<< 11)

/-- The lower 52 bits. -/
def fraction (x : Binary64) : Nat := x.bits.toNat % (1 <<< 52)

/-- Whether the number is infinite. -/
def isInfinite (x : Binary64) : Bool := x.exponentField == 2047 && x.fraction == 0

/-- Whether the bits stand for no number. -/
def isNaN (x : Binary64) : Bool := x.exponentField == 2047 && x.fraction != 0

/-- The absolute value `mantissa · 2 ^ exponent` of a finite number. -/
structure Magnitude where
  mantissa : Nat
  exponent : Int
  /-- Whether the next smaller number is only half as far away as the next larger one. -/
  narrowBelow : Bool
  deriving DecidableEq, Repr

/-- The absolute value of a finite number; for zero the mantissa is zero. -/
def magnitude (x : Binary64) : Magnitude :=
  if x.exponentField == 0 then ⟨x.fraction, -1074, false⟩
  else ⟨(1 <<< 52) + x.fraction, x.exponentField - 1075, x.fraction == 0 && x.exponentField != 1⟩

end Binary64

end OrderedChoice
