import PenScript.Real
import PenScript.Text

/-!
# Reading real numbers

A decimal literal has digits, at most one decimal point among them, and an optional exponent. It
denotes the real number nearest to its value: infinity when it is too large, zero when too small.
-/

namespace PenScript.Real

/-- The number nearest to `digits * 10 ^ exponent`. Where the exponent alone decides, no large power
is computed. -/
def ofDecimal (digits : Nat) (exponent : Int) : Float :=
  let order := ((Text.ofNat digits).length : Int) + exponent
  if digits = 0 || order < -330 then 0
  else if 310 < order then 1 / 0
  else ofRatio (digits * tenTo exponent.toNat) (tenTo (-exponent).toNat)

/-- The value of the exponent digits after an optional sign. -/
def exponentOf (text : Text) : Int :=
  match text with
  | '-' :: digits => -(Text.toNat digits : Int)
  | '+' :: digits => Text.toNat digits
  | digits => Text.toNat digits

/-- The number that a decimal literal without a sign denotes. -/
def ofLiteral (text : Text) : Float :=
  let isMark := fun (c : Char) ↦ c == 'e' || c == 'E'
  let mantissa := text.takeWhile fun c ↦ !isMark c
  let exponent := exponentOf ((text.dropWhile fun c ↦ !isMark c).drop 1)
  let whole := mantissa.takeWhile (· != '.')
  let fraction := (mantissa.dropWhile (· != '.')).drop 1
  ofDecimal (Text.toNat (whole ++ fraction)) (exponent - fraction.length)

/-- The number of a signed literal, or of a name for what is no finite number. -/
def ofText : Text → Float
  | '-' :: rest => -ofText rest
  | '+' :: rest => ofText rest
  | text =>
      if text = "inf".toList then 1 / 0
      else if text = "NaN".toList then 0 / 0
      else ofLiteral text

end PenScript.Real
