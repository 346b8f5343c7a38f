/-!
# IEEE 754 binary64 numbers

A number is its 64 bits, so equality tells the two zeros and the payloads of NaN apart;
the numerical order `Binary64.compare?` is separate and is stated on an integer key. Sums,
differences, products and quotients are the rounded operations of the processor; the remainder
is computed exactly.
-/

namespace Rete

/-- A binary64 number, by its bits. -/
structure Binary64 where
  bits : UInt64
  deriving DecidableEq, Inhabited

namespace Binary64

/-- The value of the biased exponent that marks infinities and NaN. -/
def topExponent : Nat := 2047

/-- Whether the sign bit is set. -/
def negative (x : Binary64) : Bool := x.bits.toNat / Nat.pow 2 63 == 1

/-- The eleven exponent bits. -/
def exponentField (x : Binary64) : Nat := x.bits.toNat / Nat.pow 2 52 % Nat.pow 2 11

/-- The fifty-two fraction bits. -/
def fractionField (x : Binary64) : Nat := x.bits.toNat % Nat.pow 2 52

/-- The bits without the sign; numerical order of magnitudes is their order. -/
def magnitudeBits (x : Binary64) : Nat := x.bits.toNat % Nat.pow 2 63

/-- Not a number. -/
def isNaN (x : Binary64) : Bool := x.exponentField == topExponent && x.fractionField != 0

/-- An infinity of either sign. -/
def isInfinite (x : Binary64) : Bool := x.exponentField == topExponent && x.fractionField == 0

/-- A zero of either sign. -/
def isZero (x : Binary64) : Bool := x.magnitudeBits == 0

/-- The NaN an invalid operation produces: quiet, with the sign bit set. -/
def invalid : Binary64 := ⟨0xfff8000000000000⟩

/-- The NaN that stands for all NaN where one is read. -/
def quietNaN : Binary64 := ⟨0x7ff8000000000000⟩

/-- Mantissa and exponent of a finite number: its magnitude is `mantissa * 2 ^ exponent`. -/
def decode (x : Binary64) : Nat × Int :=
  if x.exponentField = 0 then (x.fractionField, -1074)
  else (x.fractionField + Nat.pow 2 52, (x.exponentField : Int) - 1075)

/-- The machine number with the same bits. -/
def toFloat (x : Binary64) : Float := Float.ofBits x.bits

/-- A computed result; every NaN that an operation makes is the one of an invalid operation. -/
def ofFloat (x : Float) : Binary64 := if x.isNaN then invalid else ⟨x.toBits⟩

/-- The number nearest to an integer. -/
def ofInt (n : Int64) : Binary64 := ⟨n.toFloat.toBits⟩

/-- Flips the sign bit, also of zeros and NaN. -/
def neg (x : Binary64) : Binary64 := ⟨x.bits ^^^ 0x8000000000000000⟩

/-- A NaN with the bit set that makes it quiet. -/
private def quieted (x : Binary64) : Binary64 := ⟨x.bits ||| 0x0008000000000000⟩

/-- An operation on two numbers; a NaN among them is the result, the first one before the
second. -/
private def propagate (operation : Binary64 → Binary64 → Binary64) (x y : Binary64) : Binary64 :=
  if x.isNaN then x.quieted else if y.isNaN then y.quieted else operation x y

/-- The sum, rounded to the nearest. -/
def add : Binary64 → Binary64 → Binary64 :=
  propagate fun x y => ofFloat (x.toFloat + y.toFloat)

/-- The difference, rounded to the nearest. -/
def sub : Binary64 → Binary64 → Binary64 :=
  propagate fun x y => ofFloat (x.toFloat - y.toFloat)

/-- The product, rounded to the nearest. -/
def mul : Binary64 → Binary64 → Binary64 :=
  propagate fun x y => ofFloat (x.toFloat * y.toFloat)

/-- The quotient, rounded to the nearest. -/
def div : Binary64 → Binary64 → Binary64 :=
  propagate fun x y => ofFloat (x.toFloat / y.toFloat)

/-- The magnitude `mantissa * 2 ^ exponent` with a sign, for values that have an exact
binary64 form. -/
private def ofScaled (negative : Bool) (mantissa : Nat) (exponent : Int) : Binary64 :=
  let magnitude : Binary64 := ⟨(Float.scaleB mantissa.toFloat exponent).toBits⟩
  if negative then magnitude.neg else magnitude

/-- The remainder of the division that truncates toward zero. It has the sign of the first
operand and is exact: both operands are multiples of a common power of two. -/
def rem : Binary64 → Binary64 → Binary64 :=
  propagate fun x y =>
    if x.isInfinite || y.isZero then invalid
    else if y.isInfinite then x
    else
      let (xMantissa, xExponent) := x.decode
      let (yMantissa, yExponent) := y.decode
      let unit := min xExponent yExponent
      let xUnits := xMantissa * Nat.pow 2 (xExponent - unit).toNat
      let yUnits := yMantissa * Nat.pow 2 (yExponent - unit).toNat
      ofScaled x.negative (xUnits % yUnits) unit

/-- An integer in the numerical order of the numbers that are not NaN; both zeros have
key 0. -/
def orderKey (x : Binary64) : Int :=
  if x.negative then -(x.magnitudeBits : Int) else x.magnitudeBits

/-- The numerical order: the zeros are equal, and NaN is not comparable with anything. -/
def compare? (x y : Binary64) : Option Ordering :=
  if x.isNaN || y.isNaN then none else some (compare x.orderKey y.orderKey)

end Binary64

end Rete
