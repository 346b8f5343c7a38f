import Rete.Number.Binary64

/-!
# Numbers with a fixed count of decimals

The exact value of a number is rounded to the nearest multiple of a power of ten; of two that are
equally near, the even one is taken.
-/

namespace Rete

/-- The quotient rounded to the nearest integer, a half to the even one. -/
def roundedQuotient (numerator denominator : Nat) : Nat :=
  let whole := numerator / denominator
  let rest := 2 * (numerator % denominator)
  if rest < denominator then whole
  else if denominator < rest then whole + 1
  else whole + whole % 2

namespace Binary64

/-- The magnitude of a finite number in units of the last of some decimals. -/
def inDecimals (x : Binary64) (decimals : Nat) : Nat :=
  let (mantissa, exponent) := x.decode
  roundedQuotient (mantissa * Nat.pow 10 decimals * Nat.pow 2 exponent.toNat)
    (Nat.pow 2 (-exponent).toNat)

/-- The magnitude of a finite number with a fixed count of decimals. -/
def fixedText (x : Binary64) (decimals : Nat) : String :=
  let units := x.inDecimals decimals
  let fraction := Nat.toDigits 10 (units % Nat.pow 10 decimals)
  toString (units / Nat.pow 10 decimals) ++ "." ++
    String.ofList (List.replicate (decimals - fraction.length) '0' ++ fraction)

end Binary64

end Rete
