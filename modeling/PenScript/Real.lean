/-!
# Real numbers

Real numbers are double-precision floating-point numbers. This module relates a number to its exact
value: `Real.magnitude` takes a finite number apart into a significand and a power of two,
`Real.ofRatio` finds the number nearest to a quotient of natural numbers and `Real.ofInteger` the
one nearest to an integer, and `Real.remainder` is the exact remainder of a division truncated
toward zero.
-/

namespace PenScript.Real

/-- The magnitude `significand * 2 ^ exponent` of a finite number. -/
structure Magnitude where
  significand : Nat
  exponent : Int

/-- Two to a power. -/
def twoTo (exponent : Nat) : Nat := Nat.pow 2 exponent

/-- Ten to a power. -/
def tenTo (exponent : Nat) : Nat := Nat.pow 10 exponent

/-- The exponent of the numbers nearest to zero. -/
def leastExponent : Int := -1074

/-- The number has a minus sign, as minus zero does. -/
def isNegative (number : Float) : Bool :=
  number.toBits >>> 63 == 1

/-- The magnitude of a finite number. -/
def magnitude (number : Float) : Magnitude :=
  let bits := number.toBits.toNat
  let fraction := bits % twoTo 52
  let field : Nat := bits / twoTo 52 % twoTo 11
  if field = 0 then ⟨fraction, leastExponent⟩ else ⟨twoTo 52 + fraction, (field : Int) - 1075⟩

namespace Magnitude

/-- The numerator of the magnitude as a quotient of natural numbers. -/
def numerator (size : Magnitude) : Nat :=
  size.significand * twoTo size.exponent.toNat

/-- The denominator of the magnitude as a quotient of natural numbers. -/
def denominator (size : Magnitude) : Nat :=
  twoTo (-size.exponent).toNat

end Magnitude

/-- The quotient rounded to the nearest natural number, a half going to the even neighbour. -/
def roundedQuotient (numerator denominator : Nat) : Nat :=
  let quotient := numerator / denominator
  let twice := 2 * (numerator % denominator)
  if twice < denominator then quotient
  else if denominator < twice then quotient + 1
  else quotient + quotient % 2

/-- The number with this magnitude, rounded to nearest, infinite when it is too large. -/
def ofRatio (numerator denominator : Nat) : Float :=
  if numerator = 0 then 0
  else
    let guess : Int := (numerator.log2 : Int) - denominator.log2 - 53
    let short := numerator * twoTo (-(guess + 53)).toNat < denominator * twoTo (guess + 53).toNat
    let exponent := max (if short then guess else guess + 1) leastExponent
    let significand :=
      roundedQuotient (numerator * twoTo (-exponent).toNat) (denominator * twoTo exponent.toNat)
    let bits := (exponent - leastExponent).toNat * twoTo 52 + significand
    Float.ofBits (UInt64.ofNat (min bits 0x7FF0000000000000))

/-- The number with the opposite sign when asked for. -/
def withSign (negative : Bool) (number : Float) : Float :=
  if negative then -number else number

/-- The real number nearest to an integer. -/
def ofInteger (number : Int64) : Float :=
  withSign (number.toInt < 0) (UInt64.ofNat number.toInt.natAbs).toFloat

/-- What is left of the dividend after taking away the divisor a whole number of times, with the
sign of the dividend. Without a finite dividend and a divisor other than zero it is not a number. -/
def remainder (dividend divisor : Float) : Float :=
  if !dividend.isFinite || divisor.isNaN || divisor == 0 then 0 / 0
  else if divisor.isInf then dividend
  else
    let top := magnitude dividend
    let bottom := magnitude divisor
    let exponent := min top.exponent bottom.exponent
    let left := top.significand * twoTo (top.exponent - exponent).toNat %
      (bottom.significand * twoTo (bottom.exponent - exponent).toNat)
    let size : Magnitude := ⟨left, exponent⟩
    withSign (isNegative dividend) (ofRatio size.numerator size.denominator)

/-- The integer nearest to zero of those that lie between zero and the number, within the range of
64-bit integers. -/
def truncate (number : Float) : Int64 :=
  number.toInt64

/-- The nearest integer, a half going away from zero, within the range of 64-bit integers. -/
def round (number : Float) : Int64 :=
  number.round.toInt64

end PenScript.Real
