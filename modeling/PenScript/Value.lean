import PenScript.Matrix
import PenScript.Real.Numeral
import PenScript.Text

/-!
# Values

The values of a program: numbers, truth values, texts, and arrays of numbers in one and two
dimensions. A conversion that a value does not allow fails with a `TypeMismatch`, which names what
was expected and the type that was found.
-/

namespace PenScript

/-- A value of a program. Texts arise from concatenation only. -/
inductive Value where
  | integer (number : Int64)
  | real (number : Float)
  | boolean (truth : Bool)
  | string (text : Text)
  | integerArray (items : Array Int64)
  | integerMatrix (cells : Matrix Int64)
  | realArray (items : Array Float)
  | realMatrix (cells : Matrix Float)

/-- What was expected of a value, and the type that it has. -/
structure TypeMismatch where
  expected : Text
  found : Text

/-- The wording of a type mismatch. -/
def TypeMismatch.message (mismatch : TypeMismatch) : Text :=
  "type mismatch: expected ".toList ++ mismatch.expected ++ ", got ".toList ++ mismatch.found

namespace Value

/-- The name of the type of a value. -/
def typeName : Value → Text
  | .integer _ => "int".toList
  | .real _ => "real".toList
  | .boolean _ => "boolean".toList
  | .string _ => "string".toList
  | .integerArray _ => "int array".toList
  | .integerMatrix _ => "int matrix".toList
  | .realArray _ => "real array".toList
  | .realMatrix _ => "real matrix".toList

/-- The failure to find the expected kind in a value. -/
def mismatch (expected : Text) (found : Value) : TypeMismatch :=
  ⟨expected, found.typeName⟩

/-- The largest number of elements of an array, `2 ^ 24`. -/
def maxElements : Nat := 16777216

/-- The value is an integer or a real number. -/
def isNumber : Value → Bool
  | .integer _ | .real _ => true
  | _ => false

/-- The value is an array of one or two dimensions. -/
def isArray : Value → Bool
  | .integerArray _ | .integerMatrix _ | .realArray _ | .realMatrix _ => true
  | _ => false

/-- The number, when the value is an integer. -/
def integer? : Value → Option Int64
  | .integer number => some number
  | _ => none

/-- The number, when the value is a real number or an integer, which is widened. -/
def real? : Value → Option Float
  | .real number => some number
  | .integer number => some (Real.ofInteger number)
  | _ => none

/-- The truth value: a number is true when it is not zero. -/
def toBool : Value → Except TypeMismatch Bool
  | .boolean truth => .ok truth
  | .integer number => .ok (number != 0)
  | .real number => .ok (number != 0)
  | other => .error (other.mismatch "boolean".toList)

/-- The number as an integer. A finite real number is truncated toward zero. -/
def toInteger : Value → Except TypeMismatch Int64
  | .integer number => .ok number
  | .real number =>
      if number.isFinite then .ok (Real.truncate number)
      else .error (mismatch "number".toList (.real number))
  | other => .error (other.mismatch "number".toList)

/-- The number as a real number. -/
def toReal (value : Value) : Except TypeMismatch Float :=
  match value.real? with
  | some number => .ok number
  | none => .error (value.mismatch "number".toList)

/-- The value itself, when it is a number. -/
def toNumber (value : Value) : Except TypeMismatch Value :=
  if value.isNumber then .ok value else .error (value.mismatch "number".toList)

/-- The items between brackets. -/
def listText (items : List Text) : Text :=
  '[' :: Text.join ", ".toList items ++ [']']

/-- The type of the cells of a matrix with its two sizes. -/
def matrixText (element : Text) (rows columns : Nat) : Text :=
  element ++ listText [Text.ofNat rows, Text.ofNat columns]

/-- The text of a value, as concatenation joins it. -/
def text : Value → Text
  | .integer number => Text.ofInt number.toInt
  | .real number => Real.display number
  | .boolean truth => if truth then "true".toList else "false".toList
  | .string text => text
  | .integerArray items => listText (items.toList.map fun number ↦ Text.ofInt number.toInt)
  | .realArray items => listText (items.toList.map Real.display)
  | .integerMatrix cells => matrixText "int".toList cells.rows cells.columns
  | .realMatrix cells => matrixText "real".toList cells.rows cells.columns

/-- The text of a value as the drawing shows it: a real number has two decimals. -/
def drawnText : Value → Text
  | .real number => Real.fixed 2 number
  | other => other.text

/-- The two values are the same. An integer and a real number are the same when the widened integer
is that real number; otherwise values of different types differ. -/
def equal : Value → Value → Bool
  | .integer left, .integer right => left == right
  | .real left, .real right => left == right
  | .integer left, .real right => Real.ofInteger left == right
  | .real left, .integer right => Real.ofInteger right == left
  | .boolean left, .boolean right => left == right
  | .string left, .string right => left == right
  | .integerArray left, .integerArray right => left == right
  | .integerMatrix left, .integerMatrix right => left.equal right
  | .realArray left, .realArray right => left == right
  | .realMatrix left, .realMatrix right => left.equal right
  | _, _ => false

end Value

end PenScript
