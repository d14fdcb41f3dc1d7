import OrderedChoice.Number.Binary64

/-!
# JSON trees

The syntax tree of a JSON text.  Numbers keep their digits and strings their escapes, since what
they stand for, and whether it is allowed, depends on what is asked of them: an escape may hold
half of a surrogate pair as long as nobody wants the text.

* `JsonNumber.integer?` and `JsonNumber.float?` read numbers;
* `decodeUnits` reads strings.
-/

namespace OrderedChoice

/-- A number as it is written. -/
structure JsonNumber where
  negative : Bool
  /-- The digits before the point. -/
  whole : List Nat
  /-- The digits after the point, if there is one. -/
  fraction : List Nat
  /-- Whether the exponent is negative, and its digits. -/
  exponent : Option (Bool × List Nat)
  deriving DecidableEq, Repr

/-- A part of a string: a character, or an escape by a 16-bit number. -/
inductive JsonUnit where
  | char (c : Char)
  | escape (n : Nat)
  deriving DecidableEq, Repr

/-- A JSON text. -/
inductive Json where
  | null
  | bool (b : Bool)
  | number (n : JsonNumber)
  | string (units : List JsonUnit)
  | array (items : List Json)
  | object (members : List (List JsonUnit × Json))

/-! ### Strings -/

/-- The characters of a string.  The two halves of a surrogate pair must be neighbours. -/
def decodeUnits : List JsonUnit → Option (List Char)
  | [] => some []
  | .char c :: us => (decodeUnits us).map (c :: ·)
  | .escape n :: us =>
    if 0xD800 ≤ n ∧ n < 0xDC00 then
      match us with
      | .escape m :: us =>
        if 0xDC00 ≤ m ∧ m < 0xE000 then
          (decodeUnits us).map
            (Char.ofNat (0x10000 + 0x400 * (n - 0xD800) + (m - 0xDC00)) :: ·)
        else none
      | _ => none
    else if 0xDC00 ≤ n ∧ n < 0xE000 then none
    else (decodeUnits us).map (Char.ofNat n :: ·)

/-- The text of a string. -/
def decodeText (us : List JsonUnit) : Option String := (decodeUnits us).map String.ofList

/-! ### Numbers -/

namespace JsonNumber

/-- The number that digits stand for. -/
def ofDigits (ds : List Nat) : Nat := ds.foldl (fun n d => 10 * n + d) 0

/-- Whether the number is written without a point and an exponent. -/
def isPlain (n : JsonNumber) : Bool := n.fraction.isEmpty && n.exponent.isNone

/-- The integer, if it is written as one and fits into 64 bits with or without a sign.  A zero
with a minus sign counts as a floating-point number. -/
def integer? (n : JsonNumber) : Option Int :=
  let k := ofDigits n.whole
  if !n.isPlain then none
  else if n.negative then if 0 < k ∧ Int64.minValue.toInt ≤ -k then some (-k) else none
  else if k < UInt64.size then some k else none

/-- The digits read so far, as many as fit into 64 bits, and the power of ten they count. -/
structure Significand where
  digits : Nat
  exponent : Int
  deriving DecidableEq, Repr

/-- Whether no further digit fits. -/
def Significand.overflows (s : Significand) (d : Nat) : Bool :=
  UInt64.size ≤ 10 * s.digits + d

/-- Reads digits before the point: those that do not fit only raise the exponent. -/
def readWhole : Significand → List Nat → Significand
  | s, [] => s
  | s, d :: ds =>
    if s.overflows d then { s with exponent := s.exponent + (d :: ds).length }
    else readWhole { s with digits := 10 * s.digits + d } ds

/-- Reads digits after the point: those that do not fit are dropped. -/
def readFraction : Significand → List Nat → Significand
  | s, [] => s
  | s, d :: ds =>
    if s.overflows d then s
    else readFraction ⟨10 * s.digits + d, s.exponent - 1⟩ ds

/-- A power of ten. -/
def powerOfTen (n : Nat) : Float := Float.ofScientific 1 false n

/-- A number times a power of ten, rounded after every step; there is none if it is infinite. -/
def scale : Nat → Float → Int → Option Float
  | 0, x, _ => some x
  | rounds + 1, x, e =>
    if e.natAbs ≤ 308 then
      if 0 ≤ e then
        let y := x * powerOfTen e.natAbs
        if y.isInf then none else some y
      else some (x / powerOfTen e.natAbs)
    else if x == 0 then some x
    else if 0 ≤ e then none
    else scale rounds (x / powerOfTen 308) (e + 308)

/-- An exponent within 32 bits. -/
def clampExponent (e : Int) : Int := max Int32.minValue.toInt (min Int32.maxValue.toInt e)

/-- The absolute value as a floating-point number; there is none if it is too large.  Three
divisions take any significand to zero. -/
def absoluteFloat? (n : JsonNumber) : Option Float :=
  let s := readFraction (readWhole ⟨0, 0⟩ n.whole) n.fraction
  let x := (UInt64.ofNat s.digits).toFloat
  match n.exponent with
  | none => scale 4 x s.exponent
  | some (negative, ds) =>
    let e := ofDigits ds
    if Int32.maxValue.toInt < e then if s.digits != 0 && !negative then none else some 0
    else scale 4 x (clampExponent (if negative then s.exponent - e else s.exponent + e))

/-- The floating-point number; there is none if it is too large. -/
def float? (n : JsonNumber) : Option Binary64 :=
  n.absoluteFloat?.map fun x => .ofFloat (if n.negative then -x else x)

end JsonNumber

end OrderedChoice
