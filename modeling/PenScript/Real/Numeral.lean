import PenScript.Real
import PenScript.Text

/-!
# Numerals of real numbers

A real number is written in positional decimal notation, never with an exponent. `Real.shortest`
writes the fewest digits that read back as the same number, `Real.display` writes whole numbers
below `10 ^ 15` with one decimal, and `Real.fixed` rounds to a given number of decimals, a half
going to the even neighbour.
-/

namespace PenScript.Real

/-- The decimal numeral of `units / 10 ^ places`, with that many decimals. -/
def positional (units places : Nat) : Text :=
  if places = 0 then Text.ofNat units
  else
    Text.ofNat (units / tenTo places) ++
      '.' :: List.leftpad places '0' (Text.ofNat (units % tenTo places))

/-- The decimal numeral of `digits * 10 ^ exponent`. -/
def scaled (digits : Nat) (exponent : Int) : Text :=
  if exponent < 0 then positional digits (-exponent).toNat
  else Text.ofNat (digits * tenTo exponent.toNat)

/-- The quotients that read back as one number: those between `low` and `high`, the ends belonging
to them when `closed` holds. The number itself is `middle`, and all three are divided by `unit`. -/
structure Interval where
  low : Nat
  middle : Nat
  high : Nat
  unit : Nat
  closed : Bool

/-- The quotients that round to a number of this magnitude. Below a power of two the neighbouring
number is half as far away as above it. -/
def Magnitude.interval (size : Magnitude) : Interval :=
  let below := if size.significand = twoTo 52 ∧ leastExponent < size.exponent then 1 else 2
  let factor := twoTo (size.exponent - 2).toNat
  { low := (4 * size.significand - below) * factor
    middle := 4 * size.significand * factor
    high := (4 * size.significand + 2) * factor
    unit := twoTo (2 - size.exponent).toNat
    closed := size.significand % 2 == 0 }

/-- The multiple of `10 ^ exponent` in the interval that is nearest to its middle, if there is one;
of two at the same distance the larger. Only the two neighbours of the middle need a test. -/
def Interval.onGrid? (interval : Interval) (exponent : Int) : Option Nat :=
  let factor := tenTo (-exponent).toNat
  let step := tenTo exponent.toNat * interval.unit
  let middle := interval.middle * factor
  let contains := fun (digits : Nat) ↦
    if interval.closed then
      interval.low * factor ≤ digits * step && digits * step ≤ interval.high * factor
    else interval.low * factor < digits * step && digits * step < interval.high * factor
  let lower := middle / step
  match contains lower, contains (lower + 1) with
  | false, false => none
  | true, false => some lower
  | false, true => some (lower + 1)
  | true, true => some (if step ≤ 2 * (middle - lower * step) then lower + 1 else lower)

/-- The coarsest decimal grid, of at most `attempts` from `exponent` downward, that has a point in
the interval, as the digits of that point and the exponent of the grid. -/
def Interval.coarsest (interval : Interval) : Nat → Int → Nat × Int
  | 0, exponent => (interval.middle / interval.unit, exponent)
  | attempts + 1, exponent =>
      match interval.onGrid? exponent with
      | some digits => (digits, exponent)
      | none => interval.coarsest attempts (exponent - 1)

/-- The fewest digits that read back as a positive magnitude. The search starts above its order of
magnitude and ends after seventeen digits at the latest. -/
def Magnitude.shortestDigits (size : Magnitude) : Nat × Int :=
  let order := ((size.significand.log2 : Int) + size.exponent + 1) * 30103 / 100000
  size.interval.coarsest 25 (order + 1)

/-- The sign of a number as it is written. -/
def signText (number : Float) : Text :=
  if isNegative number then ['-'] else []

/-- A number with its sign, or the name of what is no finite number. -/
def writeWith (finite : Magnitude → Text) (number : Float) : Text :=
  if number.isNaN then "NaN".toList
  else if number.isInf then signText number ++ "inf".toList
  else signText number ++ finite (magnitude number)

/-- The fewest digits that read back as the same number. -/
def shortest : Float → Text :=
  writeWith fun size ↦
    if size.significand = 0 then ['0']
    else scaled size.shortestDigits.1 size.shortestDigits.2

/-- The number rounded to a number of decimals, a half going to the even neighbour. -/
def fixed (places : Nat) : Float → Text :=
  writeWith fun size ↦
    positional (roundedQuotient (size.numerator * tenTo places) size.denominator) places

/-- The number is whole and its magnitude is below `10 ^ 15`. -/
def isSmallWhole (number : Float) : Bool :=
  let size := magnitude number
  number.isFinite && size.numerator % size.denominator == 0 &&
    decide (size.numerator < tenTo 15 * size.denominator)

/-- The text of a real value: a decimal point is kept, so that the text reads back as a real number;
large whole numbers go without. -/
def display (number : Float) : Text :=
  if isSmallWhole number then fixed 1 number else shortest number

end PenScript.Real
