import Rete.Number.Binary64

/-!
# Decimal text of binary64 numbers

The decimal written for a finite number has the fewest digits that read back to it and is,
among those, the nearest; an exact tie goes away from zero. It is written positionally at
every size, without an exponent and without a fraction part for integers.

The real numbers that round to `m * 2 ^ q` form an interval around it. For one digit, two
digits and so on up to seventeen, the two neighbours of the number on the decimal grid of that
many digits are tried; the first grid with a neighbour inside the interval decides.
-/

namespace Rete.Binary64

/-- The interval of reals that round to a finite number other than zero, in units of
`2 ^ unit`: its ends and whether the ends belong to it. -/
structure RoundingInterval where
  low : Nat
  value : Nat
  high : Nat
  unit : Int
  closed : Bool

/-- Just above a power of two the gap below is half the gap above. -/
def roundingInterval (x : Binary64) : RoundingInterval :=
  let (mantissa, exponent) := x.decode
  let narrowBelow := x.fractionField == 0 && x.exponentField > 1
  { low := 4 * mantissa - (if narrowBelow then 1 else 2)
    value := 4 * mantissa
    high := 4 * mantissa + 2
    unit := exponent - 2
    closed := mantissa % 2 == 0 }

/-- A positive decimal `digits * 10 ^ exponent`. -/
structure Decimal where
  digits : Nat
  exponent : Int
  deriving DecidableEq, Inhabited

/-- Numerator and denominator that scale `n * 2 ^ unit` to units of `10 ^ exponent`. -/
private def scale (unit exponent : Int) : Nat × Nat :=
  (Nat.pow 2 unit.toNat * Nat.pow 10 (-exponent).toNat,
    Nat.pow 2 (-unit).toNat * Nat.pow 10 exponent.toNat)

/-- The nearest point of the grid of multiples of `10 ^ exponent` inside the interval; of
two equally near points the upper one. -/
def RoundingInterval.onGrid? (interval : RoundingInterval) (exponent : Int) : Option Decimal :=
  let (numerator, denominator) := scale interval.unit exponent
  let value := interval.value * numerator
  let below := value / denominator
  let above := below + 1
  let insideLow := let point := below * denominator
    if interval.closed then interval.low * numerator ≤ point
    else interval.low * numerator < point
  let insideHigh := let point := above * denominator
    if interval.closed then point ≤ interval.high * numerator
    else point < interval.high * numerator
  let upward := denominator ≤ 2 * (value - below * denominator)
  if below != 0 && decide insideLow && !(decide insideHigh && upward) then some ⟨below, exponent⟩
  else if insideHigh then some ⟨above, exponent⟩
  else none

/-- The exponent `e` with `10 ^ e ≤ value * 2 ^ unit < 10 ^ (e + 1)`. -/
def RoundingInterval.leadingExponent (interval : RoundingInterval) : Int :=
  let digitCount (n : Nat) : Int := (Nat.toDigits 10 n).length
  if 0 ≤ interval.unit then digitCount (interval.value * Nat.pow 2 interval.unit.toNat) - 1
  else
    -- A first guess from the digit counts is right or one too small.
    let denominator := Nat.pow 2 (-interval.unit).toNat
    let guess := digitCount interval.value - digitCount denominator - 1
    let (numerator', denominator') := scale interval.unit (guess + 1)
    if denominator' ≤ interval.value * numerator' then
      let (numerator'', denominator'') := scale interval.unit (guess + 2)
      if denominator'' ≤ interval.value * numerator'' then guess + 2 else guess + 1
    else guess

/-- Tries the grids of `count` digits and more. -/
private def searchGrids (interval : RoundingInterval) (leading : Int) : Nat → Nat → Option Decimal
  | _, 0 => none
  | count, remaining + 1 =>
    (interval.onGrid? (leading - count + 1)).orElse fun _ =>
      searchGrids interval leading (count + 1) remaining

/-- The shortest decimal that reads back to a finite number other than zero, the nearest of
its length. Seventeen digits always suffice. -/
def shortest (x : Binary64) : Decimal :=
  let interval := x.roundingInterval
  (searchGrids interval interval.leadingExponent 1 17).getD ⟨0, 0⟩

/-- Positional notation: no exponent, and a point only before digits of a fraction. -/
def Decimal.positional (decimal : Decimal) : String :=
  let digits := Nat.toDigits 10 decimal.digits
  if 0 ≤ decimal.exponent then
    String.ofList (digits ++ List.replicate decimal.exponent.toNat '0')
  else
    let places := (-decimal.exponent).toNat
    let padded := List.replicate (places + 1 - digits.length) '0' ++ digits
    let fraction := (padded.drop (padded.length - places)).reverse.dropWhile (· == '0') |>.reverse
    let whole := padded.take (padded.length - places)
    if fraction.isEmpty then String.ofList whole
    else String.ofList whole ++ "." ++ String.ofList fraction

/-- The text of a number. -/
def text (x : Binary64) : String :=
  if x.isNaN then "NaN"
  else
    let magnitude :=
      if x.isInfinite then "inf" else if x.isZero then "0" else x.shortest.positional
    if x.negative then "-" ++ magnitude else magnitude

end Rete.Binary64
