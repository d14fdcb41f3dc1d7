import OrderedChoice.Number.Shortest

/-!
# Written floating-point numbers

How the shortest decimal of a number is laid out.  A `FloatLayout` says between which places of
the decimal point a number is written out with all its zeros, whether a whole number keeps `.0`,
whether a positive exponent has a plus sign, how ties are broken, and what stands for numbers
that are not finite.
-/

namespace OrderedChoice

/-- The choices of a written form for floating-point numbers. -/
structure FloatLayout where
  /-- The least and the greatest number of digits before the point for which all zeros are
  written; without it they always are. -/
  positional : Option (Int × Int)
  /-- Whether a whole number ends in `.0`. -/
  pointZero : Bool
  /-- Whether a positive exponent is written with a plus sign. -/
  exponentPlus : Bool
  /-- What is written for infinity, after the sign. -/
  infinity : String
  /-- What is written when there is no number. -/
  notANumber : String
  /-- Whether infinity keeps its sign. -/
  signedInfinity : Bool
  tie : TieRule

namespace FloatLayout

/-- The plain form: never an exponent, no fraction on whole numbers. -/
def plain : FloatLayout :=
  ⟨none, false, false, "inf", "NaN", true, .larger⟩

/-- The form inside inspected values: an exponent below `1e-4` and from `1e16` on. -/
def inspected : FloatLayout :=
  ⟨some (-3, 16), true, false, "inf", "NaN", true, .larger⟩

/-- The form in JSON: an exponent below `1e-5` and from `1e16` on, `null` if not finite. -/
def json : FloatLayout :=
  ⟨some (-4, 16), true, true, "null", "null", false, .evenDigit⟩

/-- Digits with the point after the first `p` of them, filled up with zeros. -/
def placePoint (pointZero : Bool) (digits : List Char) (p : Int) : List Char :=
  if p ≤ 0 then '0' :: '.' :: (List.replicate (-p).toNat '0' ++ digits)
  else
    let n := p.toNat
    let whole := digits.take n ++ List.replicate (n - digits.length) '0'
    match digits.drop n with
    | [] => if pointZero then whole ++ ['.', '0'] else whole
    | part => whole ++ '.' :: part

/-- Digits with the point after the first of them and an exponent. -/
def placeExponent (plus : Bool) (digits : List Char) (p : Int) : List Char :=
  let mantissa := match digits with
    | [] => []
    | [d] => [d]
    | d :: ds => d :: '.' :: ds
  let sign := if p - 1 < 0 then ['-'] else if plus then ['+'] else []
  mantissa ++ 'e' :: (sign ++ natDigits (p - 1).natAbs)

/-- A decimal in the layout. -/
def decimal (f : FloatLayout) (d : Decimal) : List Char :=
  let digits := natDigits d.digits
  let p : Int := d.exponent + digits.length
  match f.positional with
  | none => placePoint f.pointZero digits p
  | some (least, greatest) =>
    if d.digits == 0 || (least ≤ p && p ≤ greatest) then placePoint f.pointZero digits p
    else placeExponent f.exponentPlus digits p

/-- A number in the layout. -/
def write (f : FloatLayout) (x : Binary64) : String :=
  let sign := if x.isNegative then "-" else ""
  if x.isNaN then f.notANumber
  else if x.isInfinite then (if f.signedInfinity then sign else "") ++ f.infinity
  else sign ++ String.ofList (f.decimal (x.magnitude.shortest f.tie))

end FloatLayout

end OrderedChoice
