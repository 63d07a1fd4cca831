import PenScript.Error
import PenScript.Integer
import PenScript.Value

/-!
# Elements of arrays

Access to the elements of array values by index. An array of one dimension takes one index, a matrix
takes two; indices are truncated to integers and checked against the bounds.
-/

namespace PenScript.Value

/-- The number of indices that an array takes. -/
def rank? : Value → Option Nat
  | .integerArray _ | .realArray _ => some 1
  | .integerMatrix _ | .realMatrix _ => some 2
  | _ => none

/-- The value is an array that takes the given number of indices. -/
def checkRank (array : Value) (name : Text) (given : Nat) : Except Error Unit :=
  match array.rank? with
  | none =>
      .error (.typeMismatch (array.mismatch ("array for '".toList ++ name ++ ['\''])))
  | some rank =>
      if given = rank then .ok ()
      else
        .error (.typeMismatch
          ⟨Text.ofNat rank ++ " index(es) for ".toList ++ array.typeName ++ " '".toList ++ name ++
            ['\''], Text.ofNat given⟩)

/-- The index that a value denotes, below a length. -/
def toIndex (value : Value) (name : Text) (length : Nat) : Except Error Nat := do
  let number ← value.toInteger.mapError .typeMismatch
  match Integer.toNat? number with
  | some index => if index < length then pure index else throw (.arrayBounds name number length)
  | none => throw (.arrayBounds name number length)

/-- The place in an array of one dimension that the indices denote. -/
def arrayPlace (name : Text) (length : Nat) (indices : List Value) : Except Error Nat :=
  match indices with
  | [index] => index.toIndex name length
  | _ => .error (.undefinedVariable name)

/-- The row and the column of a matrix that the indices denote. -/
def matrixPlace (name : Text) (rows columns : Nat) (indices : List Value) :
    Except Error (Nat × Nat) :=
  match indices with
  | [row, column] => do
      let first ← row.toIndex name rows
      let second ← column.toIndex name columns
      pure (first, second)
  | _ => .error (.undefinedVariable name)

/-- The element that the indices denote. -/
def element (array : Value) (name : Text) (indices : List Value) : Except Error Value :=
  match array with
  | .integerArray items => do
      let place ← arrayPlace name items.size indices
      pure (.integer (items.getD place 0))
  | .realArray items => do
      let place ← arrayPlace name items.size indices
      pure (.real (items.getD place 0))
  | .integerMatrix cells => do
      let (row, column) ← matrixPlace name cells.rows cells.columns indices
      pure (.integer ((cells.get? row column).getD 0))
  | .realMatrix cells => do
      let (row, column) ← matrixPlace name cells.rows cells.columns indices
      pure (.real ((cells.get? row column).getD 0))
  | _ => .error (.undefinedVariable name)

/-- The number to store in an array of integers. -/
def integerElement (value : Value) : Except Error Int64 :=
  match value.integer? with
  | some number => .ok number
  | none => .error (.typeMismatch (value.mismatch "int".toList))

/-- The number to store in an array of real numbers. -/
def realElement (value : Value) : Except Error Float :=
  value.toReal.mapError .typeMismatch

/-- The array with another value as the element that the indices denote. The value is checked before
the indices. -/
def setElement (array : Value) (name : Text) (indices : List Value) (value : Value) :
    Except Error Value :=
  match array with
  | .integerArray items => do
      let number ← value.integerElement
      let place ← arrayPlace name items.size indices
      pure (.integerArray (items.setIfInBounds place number))
  | .realArray items => do
      let number ← value.realElement
      let place ← arrayPlace name items.size indices
      pure (.realArray (items.setIfInBounds place number))
  | .integerMatrix cells => do
      let number ← value.integerElement
      let (row, column) ← matrixPlace name cells.rows cells.columns indices
      pure (.integerMatrix (cells.set row column number))
  | .realMatrix cells => do
      let number ← value.realElement
      let (row, column) ← matrixPlace name cells.rows cells.columns indices
      pure (.realMatrix (cells.set row column number))
  | _ => .error (.undefinedVariable name)

end PenScript.Value
