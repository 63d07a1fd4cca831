/-!
# Integers

Integers are 64-bit words, and arithmetic on them is exact or absent: an operation gives the
mathematical result when it is representable, and nothing otherwise. Quotients are truncated toward
zero, and a remainder has the sign of its dividend.
-/

namespace PenScript.Integer

/-- The 64-bit integer of this value, when there is one: the bounds are `-2 ^ 63` and `2 ^ 63`. -/
def ofInt? (number : Int) : Option Int64 :=
  if -9223372036854775808 ≤ number ∧ number < 9223372036854775808 then
    some (Int64.ofInt number)
  else none

/-- The sum, when it is representable. -/
def add? (left right : Int64) : Option Int64 :=
  ofInt? (left.toInt + right.toInt)

/-- The difference, when it is representable. -/
def sub? (left right : Int64) : Option Int64 :=
  ofInt? (left.toInt - right.toInt)

/-- The product, when it is representable. -/
def mul? (left right : Int64) : Option Int64 :=
  ofInt? (left.toInt * right.toInt)

/-- The opposite, when it is representable. -/
def neg? (number : Int64) : Option Int64 :=
  ofInt? (-number.toInt)

/-- The quotient truncated toward zero, when the divisor is not zero and the quotient is
representable. -/
def quotient? (dividend divisor : Int64) : Option Int64 :=
  if divisor = 0 then none else ofInt? (dividend.toInt.tdiv divisor.toInt)

/-- The remainder that belongs to `quotient?`, when there is such a quotient. -/
def remainder? (dividend divisor : Int64) : Option Int64 :=
  (quotient? dividend divisor).map fun _ ↦
    Int64.ofInt (dividend.toInt.tmod divisor.toInt)

/-- The 32-bit integer of the same value, when there is one: the bounds are `-2 ^ 31` and
`2 ^ 31`. -/
def toInt32? (number : Int64) : Option Int32 :=
  if -2147483648 ≤ number.toInt ∧ number.toInt < 2147483648 then
    some (Int32.ofInt number.toInt)
  else none

/-- The byte of the same value, when there is one. -/
def toByte? (number : Int64) : Option UInt8 :=
  if 0 ≤ number.toInt ∧ number.toInt < 256 then some (UInt8.ofNat number.toInt.toNat) else none

/-- The natural number of the same value, when there is one. -/
def toNat? (number : Int64) : Option Nat :=
  if 0 ≤ number.toInt then some number.toInt.toNat else none

end PenScript.Integer
