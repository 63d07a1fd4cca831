/-!
# Matrices

A matrix is a rectangle of cells of fixed size, stored row by row. The type says that there is one
cell for each row and column, so an index within bounds always finds one.
-/

namespace PenScript

/-- A rectangle of cells, row by row. -/
structure Matrix (α : Type) where
  rows : Nat
  columns : Nat
  cells : Array α
  size_cells : cells.size = rows * columns

namespace Matrix

variable {α : Type}

/-- The matrix whose cells all hold one value. -/
def constant (rows columns : Nat) (value : α) : Matrix α where
  rows := rows
  columns := columns
  cells := Array.replicate (rows * columns) value
  size_cells := Array.size_replicate

/-- The matrix with the given cells, row by row; the value fills the cells that are missing. -/
def ofList (rows columns : Nat) (value : α) (items : List α) : Matrix α where
  rows := rows
  columns := columns
  cells := Array.ofFn fun place : Fin (rows * columns) ↦ (items.toArray[place.val]?).getD value
  size_cells := Array.size_ofFn

/-- The place of a cell in the storage, for a row and a column within bounds. -/
def place? (matrix : Matrix α) (row column : Nat) : Option Nat :=
  if row < matrix.rows ∧ column < matrix.columns then some (row * matrix.columns + column)
  else none

/-- The cell at a row and a column. -/
def get? (matrix : Matrix α) (row column : Nat) : Option α :=
  (matrix.place? row column).bind fun place ↦ matrix.cells[place]?

/-- The matrix with another value in one cell; nothing changes when there is no such cell. -/
def set (matrix : Matrix α) (row column : Nat) (value : α) : Matrix α :=
  match matrix.place? row column with
  | none => matrix
  | some place =>
      { matrix with
        cells := matrix.cells.setIfInBounds place value
        size_cells := by rw [Array.size_setIfInBounds, matrix.size_cells] }

/-- The cells of one row, from the first column to the last. -/
def row (matrix : Matrix α) (index : Nat) : List α :=
  (List.range matrix.columns).filterMap (matrix.get? index)

/-- The same size and the same cells. -/
def equal [BEq α] (left right : Matrix α) : Bool :=
  left.rows == right.rows && left.columns == right.columns && left.cells == right.cells

end Matrix

end PenScript
