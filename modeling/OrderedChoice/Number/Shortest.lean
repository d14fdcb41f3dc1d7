import OrderedChoice.Number.Binary64
import OrderedChoice.Text.Numeral

/-!
# Shortest decimals

Among the decimals that round to a given binary number, the shortest are those with the fewest
digits, and of these the nearest to the number is taken.  `Magnitude.shortest` finds it in exact
arithmetic: for one digit, two digits and so on it looks at the two neighbours of the number on
the decimal grid with that many digits, until one of them rounds to the number.
-/

namespace OrderedChoice

/-- The number `digits · 10 ^ exponent`. -/
structure Decimal where
  digits : Nat
  exponent : Int
  deriving DecidableEq, Repr

/-- Where the two nearest decimals are equally near, which of them is taken. -/
inductive TieRule where
  | larger
  | evenDigit
  deriving DecidableEq, Repr

/-- A ratio of natural numbers. -/
structure Ratio where
  num : Nat
  den : Nat

namespace Ratio

/-- The ratio times a power of a base. -/
def scale (r : Ratio) (base : Nat) : Int → Ratio
  | .ofNat k => ⟨r.num * base.pow k, r.den⟩
  | .negSucc k => ⟨r.num, r.den * base.pow (k + 1)⟩

/-- Whether the ratio is less than a natural number. -/
def isBelow (r : Ratio) (n : Nat) : Bool := r.num < n * r.den

/-- Whether the ratio is greater than a natural number. -/
def isAbove (r : Ratio) (n : Nat) : Bool := n * r.den < r.num

/-- How often a ratio below one has to be multiplied by ten to reach one, up to a limit. -/
def leadingZeros : Nat → Ratio → Nat
  | 0, _ => 0
  | limit + 1, r => if r.num < r.den then leadingZeros limit ⟨r.num * 10, r.den⟩ + 1 else 0

/-- The place of the decimal point after the first `p` digits: the `p` with
`10 ^ (p - 1) ≤ r < 10 ^ p`. -/
def pointPlace (r : Ratio) : Int :=
  if r.num < r.den then 1 - (leadingZeros 400 r : Int)
  else ((natDigits (r.num / r.den)).length : Int)

end Ratio

/-- The number without the zeros at its end. -/
def Decimal.trim : Nat → Decimal → Decimal
  | 0, d => d
  | limit + 1, d =>
    if d.digits != 0 && d.digits % 10 == 0 then Decimal.trim limit ⟨d.digits / 10, d.exponent + 1⟩
    else d

namespace Binary64.Magnitude

variable (x : Binary64.Magnitude)

/-- A multiple of a quarter of the last binary place, in units of the decimal place `k`. -/
def quarters (n : Nat) (k : Int) : Ratio := (Ratio.scale ⟨n, 1⟩ 2 (x.exponent - 2)).scale 10 (-k)

/-- Whether the decimal `d · 10 ^ k` rounds to the number; the ends of the interval do so iff
the mantissa is even. -/
def isRoundedFrom (d : Nat) (k : Int) : Bool :=
  let low := x.quarters (4 * x.mantissa - (if x.narrowBelow then 1 else 2)) k
  let high := x.quarters (4 * x.mantissa + 2) k
  if x.mantissa % 2 == 0 then !low.isAbove d && !high.isBelow d
  else low.isBelow d && high.isAbove d

/-- Of the two decimals `d` and `d + 1` in units of the place `k`, the one nearer to the number. -/
def nearer (tie : TieRule) (d : Nat) (k : Int) : Nat :=
  let r := x.quarters (4 * x.mantissa) k
  let middle := Ratio.mk (2 * r.num) r.den
  if middle.isBelow (2 * d + 1) then d
  else if middle.isAbove (2 * d + 1) then d + 1
  else match tie with
    | .larger => d + 1
    | .evenDigit => if d % 2 == 0 then d else d + 1

/-- The decimal of at most the given number of further digits that rounds to the number. -/
def shortestFrom (tie : TieRule) (point : Int) : Nat → Nat → Decimal
  | 0, n =>
    let k := point - n
    ⟨x.nearer tie ((x.quarters (4 * x.mantissa) k).num / (x.quarters (4 * x.mantissa) k).den) k, k⟩
  | more + 1, n =>
    let k := point - n
    let r := x.quarters (4 * x.mantissa) k
    let d := r.num / r.den
    match x.isRoundedFrom d k, x.isRoundedFrom (d + 1) k with
    | true, true => ⟨x.nearer tie d k, k⟩
    | true, false => ⟨d, k⟩
    | false, true => ⟨d + 1, k⟩
    | false, false => shortestFrom tie point more (n + 1)

/-- The shortest decimal that rounds to the number; seventeen digits always suffice. -/
def shortest (tie : TieRule) : Decimal :=
  if x.mantissa == 0 then ⟨0, 0⟩
  else
    let point := (x.quarters (4 * x.mantissa) 0).pointPlace
    (x.shortestFrom tie point 16 1).trim 400

end Binary64.Magnitude

end OrderedChoice
