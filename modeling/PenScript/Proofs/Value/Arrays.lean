import PenScript.Proofs.Expression.Concatenation
import PenScript.Proofs.Machine.Decision
import PenScript.Proofs.Scope.Lookup

/-!
# Arrays as values

An array is well formed when it has an element at least and no more than an array may have; a matrix
has a row and a column at least. Only one command makes an array, and it checks the sizes before
(`Command.allocation_ok`). Everything else hands arrays on: the value of an expression is no array
unless it is that of a variable (`Expression.evaluate_known`), and a store changes one element and
no size (`set_element_ok`). So a statement gives a variable a well-formed value when all variables
have one (`statement_well_formed`).

The elements of an array are stored in one list, row by row. `Value.place` is where indices lead in
it, which is always a place that exists.
-/

namespace PenScript

/-- The matrix has a row and a column at least, no more cells than an array may have, which is
`2 ^ 24`, and one cell for each row and column. -/
structure Matrix.WellFormed {α : Type} (matrix : Matrix α) : Prop where
  rows : 1 ≤ matrix.rows
  columns : 1 ≤ matrix.columns
  size : matrix.rows * matrix.columns ≤ 16777216
  cells : matrix.cells.size = matrix.rows * matrix.columns

namespace Value

/-- The value is no array, or one of a possible size. -/
def WellFormed : Value → Prop
  | .integerArray items => 1 ≤ items.size ∧ items.size ≤ 16777216
  | .realArray items => 1 ≤ items.size ∧ items.size ≤ 16777216
  | .integerMatrix cells => cells.WellFormed
  | .realMatrix cells => cells.WellFormed
  | _ => True

/-- The sizes of an array: its length, or its numbers of rows and columns. -/
def sizes : Value → List Nat
  | .integerArray items => [items.size]
  | .realArray items => [items.size]
  | .integerMatrix cells => [cells.rows, cells.columns]
  | .realMatrix cells => [cells.rows, cells.columns]
  | _ => []

/-- The elements of an array as they are stored, those of a matrix row by row. -/
def elements : Value → List Value
  | .integerArray items => items.toList.map .integer
  | .realArray items => items.toList.map .real
  | .integerMatrix cells => cells.cells.toList.map .integer
  | .realMatrix cells => cells.cells.toList.map .real
  | _ => []

/-- The place among the stored elements that indices denote. -/
def place (array : Value) (name : Text) (indices : List Value) : Except Error Nat :=
  match array.sizes with
  | [length] => arrayPlace name length indices
  | [rows, columns] =>
      (matrixPlace name rows columns indices).map fun (row, column) ↦ row * columns + column
  | _ => .error (.undefinedVariable name)

/-- A value that is no array is well formed. -/
theorem WellFormed.of_scalar {value : Value} (h : value.isArray = false) : value.WellFormed := by
  cases value <;> first | exact trivial | cases h

/-- A number is no array. -/
theorem not_array_of_number {value : Value} (h : value.isNumber = true) :
    value.isArray = false := by
  cases value <;> first | rfl | cases h

end Value

section Access

variable {name : Text} {indices : List Value}

/-- An index is below the length that it was checked against. -/
theorem to_index_lt {value : Value} {length index : Nat}
    (h : value.toIndex name length = .ok index) : index < length := by
  obtain ⟨number, -, h⟩ := ok_of_bind h
  split at h
  · split at h
    · obtain rfl := Except.ok.inj h
      assumption
    · cases h
  · cases h

/-- A place in an array of one dimension exists. -/
theorem array_place_lt {length place : Nat}
    (h : Value.arrayPlace name length indices = .ok place) : place < length := by
  unfold Value.arrayPlace at h
  split at h
  · exact to_index_lt h
  · cases h

/-- A row and a column of a matrix exist. -/
theorem matrix_place_lt {rows columns row column : Nat}
    (h : Value.matrixPlace name rows columns indices = .ok (row, column)) :
    row < rows ∧ column < columns := by
  unfold Value.matrixPlace at h
  split at h
  · obtain ⟨first, hfirst, h⟩ := ok_of_bind h
    obtain ⟨second, hsecond, h⟩ := ok_of_bind h
    obtain ⟨rfl, rfl⟩ := Prod.mk.inj (Except.ok.inj h)
    exact ⟨to_index_lt hfirst, to_index_lt hsecond⟩
  · cases h

namespace Matrix

variable {α : Type} {matrix : Matrix α} {row column : Nat}

/-- The cells of the rows before a row, and of the columns before a column in it, are some of the
cells, and not all. -/
theorem place_lt (hrow : row < matrix.rows) (hcolumn : column < matrix.columns) :
    row * matrix.columns + column < matrix.cells.size := by
  rw [matrix.size_cells]
  calc row * matrix.columns + column
      < row * matrix.columns + matrix.columns := Nat.add_lt_add_left hcolumn _
    _ = (row + 1) * matrix.columns := (Nat.succ_mul row matrix.columns).symm
    _ ≤ matrix.rows * matrix.columns := Nat.mul_le_mul_right _ hrow

/-- The cell at a row and a column is stored at their place. -/
theorem get_eq (hrow : row < matrix.rows) (hcolumn : column < matrix.columns) :
    matrix.get? row column = matrix.cells[row * matrix.columns + column]? := by
  unfold get? place?
  rw [if_pos ⟨hrow, hcolumn⟩, Option.bind_some]

/-- Setting a cell changes no size. -/
theorem sizes_set (row column : Nat) (value : α) :
    (matrix.set row column value).rows = matrix.rows ∧
      (matrix.set row column value).columns = matrix.columns := by
  unfold set
  split <;> exact ⟨rfl, rfl⟩

end Matrix

section Storage

variable {α : Type} (cast : α → Value) {items : Array α} {place : Nat}

/-- An element that exists is one of those that are stored. -/
theorem items_stored (h : place < items.size) (other : α) :
    (items.toList.map cast)[place]? = some (cast (items.getD place other)) := by
  rw [List.getElem?_map, Array.getElem?_toList, Array.getElem?_eq_getElem h, Array.getD,
    dif_pos h]
  rfl

/-- The stored elements are as many as there are elements. -/
theorem stored_of_lt (h : place < items.size) : place < (items.toList.map cast).length := by
  rw [List.length_map, Array.length_toList]
  exact h

/-- Setting an element sets the one that is stored. -/
theorem items_set (items : Array α) (place : Nat) (value : α) :
    (items.setIfInBounds place value).toList.map cast =
      (items.toList.map cast).set place (cast value) := by
  rw [Array.toList_setIfInBounds, List.map_set]

/-- Setting the cell at a row and a column sets the one that is stored at their place. -/
theorem cells_set {matrix : Matrix α} {row column : Nat} (hrow : row < matrix.rows)
    (hcolumn : column < matrix.columns) (value : α) :
    (matrix.set row column value).cells.toList.map cast =
      (matrix.cells.toList.map cast).set (row * matrix.columns + column) (cast value) := by
  have hplace : matrix.place? row column = some (row * matrix.columns + column) :=
    if_pos ⟨hrow, hcolumn⟩
  unfold Matrix.set
  split
  · cases hplace.symm.trans ‹_›
  · obtain rfl := Option.some.inj (hplace.symm.trans ‹_›)
    exact items_set cast matrix.cells _ value

end Storage

/-- The element that indices denote is a stored one. -/
theorem element_ok {array value : Value} (h : array.element name indices = .ok value) :
    ∃ place, array.place name indices = .ok place ∧ array.elements[place]? = some value := by
  cases array with
  | integer | real | boolean | string => cases h
  | integerArray items | realArray items =>
      obtain ⟨place, hplace, h⟩ := ok_of_bind h
      obtain rfl := Except.ok.inj h
      exact ⟨place, hplace, items_stored _ (array_place_lt hplace) 0⟩
  | integerMatrix cells | realMatrix cells =>
      obtain ⟨⟨row, column⟩, hplace, h⟩ := ok_of_bind h
      obtain rfl := Except.ok.inj h
      obtain ⟨hrow, hcolumn⟩ := matrix_place_lt hplace
      refine ⟨row * cells.columns + column, ?_, ?_⟩
      · simp only [Value.place, Value.sizes, hplace, Except.map]
      · rw [Matrix.get_eq hrow hcolumn, ← Array.getD_eq_getD_getElem?]
        exact items_stored _ (Matrix.place_lt hrow hcolumn) 0

/-- What an array keeps of a value that is stored in it: an integer in an array of integers, and any
number, as a real one, in an array of real numbers. -/
def Value.kept? (array value : Value) : Option Value :=
  match array with
  | .integerArray _ | .integerMatrix _ => value.integer?.map .integer
  | .realArray _ | .realMatrix _ => value.real?.map .real
  | _ => none

/-- An integer that may be stored is kept. -/
theorem integer_element_ok {value : Value} {number : Int64}
    (h : value.integerElement = .ok number) :
    value.integer?.map Value.integer = some (.integer number) := by
  unfold Value.integerElement at h
  split at h
  · rename_i hnumber
    obtain rfl := Except.ok.inj h
    rw [hnumber, Option.map_some]
  · cases h

/-- A number that may be stored as a real one is kept as that. -/
theorem real_element_ok {value : Value} {number : Float} (h : value.realElement = .ok number) :
    value.real?.map Value.real = some (.real number) := by
  have hreal : value.toReal = .ok number := ok_of_map_error h
  unfold Value.toReal at hreal
  split at hreal
  · rename_i hnumber
    obtain rfl := Except.ok.inj hreal
    rw [hnumber, Option.map_some]
  · cases hreal

/-- Storing a value keeps it as the stored element that the indices denote, and changes no other
element and no size. -/
theorem set_element_kept {array value updated : Value}
    (h : array.setElement name indices value = .ok updated) :
    ∃ place stored, array.place name indices = .ok place ∧ array.kept? value = some stored ∧
      place < array.elements.length ∧ updated.elements = array.elements.set place stored ∧
      updated.sizes = array.sizes := by
  cases array with
  | integer | real | boolean | string => cases h
  | integerArray items | realArray items =>
      obtain ⟨number, hnumber, h⟩ := ok_of_bind h
      obtain ⟨place, hplace, h⟩ := ok_of_bind h
      obtain rfl := Except.ok.inj h
      refine ⟨place, _, hplace, ?_, stored_of_lt _ (array_place_lt hplace), items_set _ _ _ _, ?_⟩
      · first
        | exact integer_element_ok hnumber
        | exact real_element_ok hnumber
      · rw [Value.sizes, Value.sizes, Array.size_setIfInBounds]
  | integerMatrix cells | realMatrix cells =>
      obtain ⟨number, hnumber, h⟩ := ok_of_bind h
      obtain ⟨⟨row, column⟩, hplace, h⟩ := ok_of_bind h
      obtain rfl := Except.ok.inj h
      obtain ⟨hrow, hcolumn⟩ := matrix_place_lt hplace
      obtain ⟨hrows, hcolumns⟩ := @Matrix.sizes_set _ cells row column number
      refine ⟨row * cells.columns + column, _, ?_, ?_, stored_of_lt _ (Matrix.place_lt hrow hcolumn),
        cells_set _ hrow hcolumn number, ?_⟩
      · simp only [Value.place, Value.sizes, hplace, Except.map]
      · first
        | exact integer_element_ok hnumber
        | exact real_element_ok hnumber
      · rw [Value.sizes, Value.sizes, hrows, hcolumns]

/-- Storing a value changes the stored element that the indices denote, and no size. -/
theorem set_element_ok {array value updated : Value}
    (h : array.setElement name indices value = .ok updated) :
    ∃ place stored, array.place name indices = .ok place ∧ place < array.elements.length ∧
      updated.elements = array.elements.set place stored ∧ updated.sizes = array.sizes := by
  obtain ⟨place, stored, hplace, -, hlt, helements, hsizes⟩ := set_element_kept h
  exact ⟨place, stored, hplace, hlt, helements, hsizes⟩

/-- An element of an array is a number. -/
theorem element_scalar {array value : Value} (h : value ∈ array.elements) :
    value.isArray = false := by
  cases array with
  | integer | real | boolean | string => cases h
  | integerArray | realArray | integerMatrix | realMatrix =>
      obtain ⟨number, -, rfl⟩ := List.mem_map.mp h
      rfl

end Access

/-- The sizes of a value are those of an array, if they are any, which may be so large. -/
def PossibleSizes : List Nat → Prop
  | [length] => 1 ≤ length ∧ length ≤ 16777216
  | [rows, columns] => 1 ≤ rows ∧ 1 ≤ columns ∧ rows * columns ≤ 16777216
  | _ => True

/-- Whether a value is well formed depends on its sizes only, because a matrix has a cell for each
row and column by its type. -/
theorem well_formed_iff {value : Value} : value.WellFormed ↔ PossibleSizes value.sizes := by
  cases value with
  | integer | real | boolean | string => exact Iff.rfl
  | integerArray items | realArray items => exact Iff.rfl
  | integerMatrix cells | realMatrix cells =>
      exact ⟨fun h ↦ ⟨h.rows, h.columns, h.size⟩,
        fun ⟨hrows, hcolumns, hsize⟩ ↦ ⟨hrows, hcolumns, hsize, cells.size_cells⟩⟩

section Expressions

variable {scope : Scope}

/-- The value is no array, or that of a variable. -/
def Value.Known (scope : Scope) (value : Value) : Prop :=
  value.isArray = true → ∃ name, scope.get? name = some value

/-- A value that is no array need not be that of a variable. -/
theorem Value.Known.of_scalar {value : Value} (h : value.isArray = false) : value.Known scope := by
  intro harray
  cases h.symm.trans harray

/-- A number is a value that is known. -/
theorem Value.Known.of_number {value : Value} (h : value.isNumber = true) : value.Known scope :=
  .of_scalar (Value.not_array_of_number h)

/-- An operator between two values makes a number. -/
theorem apply_number {operator : ArithmeticOperator} {left right value : Value}
    (h : operator.apply left right = .ok value) : value.isNumber = true := by
  have hexact : ∀ result, operator.exact result = .ok value → value.isNumber = true := by
    intro result hresult
    unfold ArithmeticOperator.exact at hresult
    split at hresult
    · obtain rfl := Except.ok.inj hresult
      rfl
    · cases hresult
  unfold ArithmeticOperator.apply at h
  split at h
  · unfold ArithmeticOperator.applyIntegers at h
    split at h
    · exact hexact _ h
    · exact hexact _ h
    · exact hexact _ h
    · split at h
      · cases h
      · split at h
        · exact hexact _ h
        · obtain rfl := Except.ok.inj h
          rfl
    · split at h
      · cases h
      · exact hexact _ h
  · split at h
    · unfold ArithmeticOperator.applyReals at h
      split at h
      · cases h
      · dsimp only at h
        split at h
        · obtain rfl := Except.ok.inj h
          rfl
        · cases h
    · cases h
    · cases h

/-- The opposite of a number is a number. -/
theorem negate_number {value result : Value} (h : Arithmetic.negate value = .ok result) :
    result.isNumber = true := by
  unfold Arithmetic.negate at h
  split at h
  · unfold ArithmeticOperator.exact at h
    split at h
    · obtain rfl := Except.ok.inj h
      rfl
    · cases h
  · obtain rfl := Except.ok.inj h
    rfl
  · cases h

/-- What is computed from each item in turn has what each of the computations guarantees. -/
theorem forall_of_mapM {α β : Type} {each : α → Except Error β} {P : β → Prop}
    (heach : ∀ item result, each item = .ok result → P result) {items : List α}
    {results : List β} (h : items.mapM each = .ok results) :
    results.length = items.length ∧ ∀ result ∈ results, P result := by
  induction items generalizing results with
  | nil =>
      obtain rfl := Except.ok.inj h
      exact ⟨rfl, fun _ hmem ↦ nomatch hmem⟩
  | cons item rest ih =>
      rw [List.mapM_cons] at h
      obtain ⟨first, hfirst, h⟩ := ok_of_bind h
      obtain ⟨others, hothers, h⟩ := ok_of_bind h
      obtain rfl := Except.ok.inj h
      obtain ⟨hlength, hresults⟩ := ih hothers
      refine ⟨congrArg Nat.succ hlength, fun result hmem ↦ ?_⟩
      rcases List.mem_cons.mp hmem with rfl | hmem
      · exact heach item _ hfirst
      · exact hresults result hmem

/-- A value that is read as a number is one. -/
theorem to_number_number {value number : Value} (h : value.toNumber = .ok number) :
    number.isNumber = true := by
  unfold Value.toNumber at h
  split at h
  · obtain rfl := Except.ok.inj h
    assumption
  · cases h

/-- A reading makes no array. -/
def Arithmetic.Reading.Known (scope : Scope) (reading : Arithmetic.Reading) : Prop :=
  ∀ value rest, reading = .ok (value, rest) → value.Known scope

namespace Arithmetic

/-- A reading after another one. -/
theorem Reading.Known.bind {first : Reading} {next : Value × List Token → Reading}
    (hfirst : first.Known scope)
    (hnext : ∀ value rest, value.Known scope → (next (value, rest)).Known scope) :
    Reading.Known scope (first >>= next) := by
  intro value rest h
  obtain ⟨⟨middle, others⟩, hmiddle, h⟩ := ok_of_bind h
  exact hnext middle others (hfirst middle others hmiddle) value rest h

/-- A value that was computed before the reading goes on. -/
theorem Reading.Known.after {α : Type} {first : Except Fault α} {next : α → Reading}
    (hnext : ∀ value, first = .ok value → (next value).Known scope) :
    Reading.Known scope (first >>= next) := by
  intro value rest h
  obtain ⟨middle, hmiddle, h⟩ := ok_of_bind h
  exact hnext middle hmiddle value rest h

/-- A reading that ends with a known value. -/
theorem Reading.Known.pure {value : Value} (h : value.Known scope) (rest : List Token) :
    Reading.Known scope (.ok (value, rest)) := by
  intro found others hfound
  obtain ⟨rfl, -⟩ := Prod.mk.inj (Except.ok.inj hfound)
  exact h

/-- A reading that fails makes no value at all. -/
theorem Reading.Known.error (fault : Fault) : Reading.Known scope (.error fault) :=
  fun _ _ h ↦ nomatch h

/-- No rule of the grammar makes an array, on the given fuel. -/
structure MakesNoArray (scope : Scope) (fuel : Nat) : Prop where
  sum : ∀ tokens, (sum scope fuel tokens).Known scope
  sumTail : ∀ value tokens, value.Known scope → (sumTail scope fuel value tokens).Known scope
  product : ∀ tokens, (product scope fuel tokens).Known scope
  productTail : ∀ value tokens, value.Known scope →
    (productTail scope fuel value tokens).Known scope
  factor : ∀ tokens, (factor scope fuel tokens).Known scope
  atom : ∀ tokens, (atom scope fuel tokens).Known scope

/-- No rule of the grammar makes an array. -/
theorem makes_no_array (scope : Scope) (fuel : Nat) : MakesNoArray scope fuel := by
  induction fuel with
  | zero =>
      constructor
      all_goals intros
      all_goals
        first
        | rw [Arithmetic.sum] | rw [Arithmetic.sumTail] | rw [Arithmetic.product]
        | rw [Arithmetic.productTail] | rw [Arithmetic.factor] | rw [Arithmetic.atom]
        exact .error _
  | succ fuel ih =>
      constructor
      case sum =>
        intro tokens
        rw [Arithmetic.sum]
        exact (ih.product tokens).bind fun value rest hvalue ↦ ih.sumTail value rest hvalue
      case product =>
        intro tokens
        rw [Arithmetic.product]
        exact (ih.factor tokens).bind fun value rest hvalue ↦ ih.productTail value rest hvalue
      case sumTail =>
        intro value tokens hvalue
        cases tokens with
        | nil =>
            rw [Arithmetic.sumTail]
            exact .pure hvalue _
        | cons token rest =>
            rw [Arithmetic.sumTail]
            split
            · exact .pure hvalue _
            · refine (ih.product rest).bind fun right others _ ↦ .after fun result hresult ↦ ?_
              exact ih.sumTail result others (.of_number (apply_number hresult))
      case productTail =>
        intro value tokens hvalue
        cases tokens with
        | nil =>
            rw [Arithmetic.productTail]
            exact .pure hvalue _
        | cons token rest =>
            rw [Arithmetic.productTail]
            split
            · exact .pure hvalue _
            · refine (ih.factor rest).bind fun right others _ ↦ .after fun result hresult ↦ ?_
              exact ih.productTail result others (.of_number (apply_number hresult))
      case factor =>
        intro tokens
        cases tokens with
        | nil => exact ih.atom []
        | cons token rest =>
            cases token with
            | minus =>
                refine (ih.factor rest).bind fun value others _ ↦ ?_
                refine .after fun result hresult ↦ ?_
                exact .pure (.of_number (negate_number hresult)) others
            | plus =>
                refine (ih.factor rest).bind fun value others _ ↦ ?_
                refine .after fun result hresult ↦ ?_
                exact .pure (.of_number (to_number_number (ok_of_map_error hresult))) others
            | _ => exact ih.atom _
      case atom =>
        intro tokens
        cases tokens with
        | nil => exact .error _
        | cons token rest =>
            cases token with
            | integer number | real number | boolean truth => exact .pure (.of_scalar rfl) rest
            | name name =>
                rw [Arithmetic.atom]
                split
                · exact .pure (fun _ ↦ ⟨name, ‹_›⟩) rest
                · exact .error _
            | leftParen =>
                refine (ih.sum rest).bind fun value others hvalue ↦ ?_
                dsimp only
                split
                · exact .pure hvalue _
                · exact .error _
            | _ => exact .error _

/-- Arithmetic makes no array. -/
theorem evaluate_known {text : Text} {value : Value} (h : evaluate scope text = .ok value) :
    value.Known scope := by
  obtain ⟨tokens, -, h⟩ := ok_of_bind h
  unfold ofTokens at h
  split at h
  · cases h
  · obtain ⟨⟨found, rest⟩, hfound, h⟩ := ok_of_bind h
    dsimp only at h
    split at h
    · obtain rfl := Except.ok.inj h
      exact (makes_no_array scope _).sum tokens found _ hfound
    · cases h

end Arithmetic

namespace Expression

/-- A comparison is a truth value, and makes no array otherwise. -/
theorem comparison_known {text : Text} {value : Value} (h : comparison scope text = .ok value) :
    value.Known scope := by
  unfold comparison at h
  split at h
  · exact Arithmetic.evaluate_known h
  · obtain ⟨left, -, h⟩ := ok_of_bind h
    obtain ⟨right, -, h⟩ := ok_of_bind h
    obtain ⟨result, -, h⟩ := ok_of_bind h
    obtain rfl := Except.ok.inj h
    exact .of_scalar rfl

/-- A formula makes no array. -/
theorem formula_known {text : Text} {value : Value} (h : formula scope text = .ok value) :
    value.Known scope := by
  unfold formula at h
  split at h
  · cases h
  · split at h
    · obtain ⟨left, -, h⟩ := ok_of_bind h
      obtain ⟨right, -, h⟩ := ok_of_bind h
      obtain rfl := Except.ok.inj h
      exact .of_scalar rfl
    · split at h
      · obtain ⟨inner, -, h⟩ := ok_of_bind h
        obtain rfl := Except.ok.inj h
        exact .of_scalar rfl
      · exact comparison_known h

/-- An expression makes no array: its value is one only when it is the value of a variable. -/
theorem evaluate_known {text : Text} {value : Value} (h : evaluate scope text = .ok value) :
    value.Known scope := by
  have hvalue : Expression.value scope text = .ok value := ok_of_map_error h
  by_cases hquote : '"' ∈ text
  · obtain ⟨string, rfl⟩ := string_of_quote hquote hvalue
    exact .of_scalar rfl
  · rw [Expression.value, if_neg (mt List.contains_iff_mem.mp hquote)] at hvalue
    exact formula_known hvalue

end Expression

end Expressions

/-- All variables have well-formed values. -/
def Scope.WellFormed (scope : Scope) : Prop :=
  ∀ name value, scope.get? name = some value → value.WellFormed

section Commands

variable {scope : Scope} {text name : Text} {value : Value}

/-- A value that is known among well-formed ones is well formed. -/
theorem Scope.WellFormed.known (h : scope.WellFormed) (hvalue : value.Known scope) :
    value.WellFormed := by
  cases harray : value.isArray with
  | false => exact .of_scalar harray
  | true =>
      obtain ⟨name, hname⟩ := hvalue harray
      exact h name value hname

/-- A variable may be given a well-formed value. -/
theorem Scope.WellFormed.insert (h : scope.WellFormed) (hvalue : value.WellFormed) (name : Text) :
    Scope.WellFormed (scope.insert name value) := by
  intro other found hfound
  rw [NameMap.get_insert] at hfound
  split at hfound
  · obtain rfl := Option.some.inj hfound
    exact hvalue
  · exact h other found hfound

/-- A conversion to a kind of variable makes no array. -/
theorem convert_scalar {kind : VariableKind} {source : Value}
    (h : kind.convert source = .ok value) : value.isArray = false := by
  unfold VariableKind.convert at h
  split at h
  case h_2 =>
    obtain ⟨number, -, h⟩ := ok_of_bind h
    obtain rfl := Except.ok.inj h
    rfl
  all_goals
    cases h
    try rfl

/-- The effect gives a variable a well-formed value, if it gives any a value at all. -/
def Effect.WellFormed : Effect → Prop
  | .bind _ value => value.WellFormed
  | _ => True

namespace Command

variable {effect : Effect}

/-- A variable is declared with a number or a truth value. -/
theorem declaration_well_formed {kind : VariableKind}
    (h : declaration kind scope text = .ok effect) : effect.WellFormed := by
  obtain ⟨⟨name, expression⟩, -, h⟩ := ok_of_bind h
  cases expression with
  | none =>
      obtain rfl := Except.ok.inj h
      cases kind <;> exact trivial
  | some expression =>
      obtain ⟨value, -, h⟩ := ok_of_bind h
      obtain ⟨converted, hconverted, h⟩ := ok_of_bind h
      obtain rfl := Except.ok.inj h
      exact .of_scalar (convert_scalar (ok_of_map_error hconverted))

/-- An assignment copies a value. -/
theorem assignment_well_formed (hscope : scope.WellFormed)
    (h : assignment scope text = .ok effect) : effect.WellFormed := by
  obtain ⟨⟨name, expression⟩, -, h⟩ := ok_of_bind h
  cases expression with
  | none => cases h
  | some expression =>
      obtain ⟨value, hvalue, h⟩ := ok_of_bind h
      have hcopy : value.WellFormed := hscope.known (Expression.evaluate_known hvalue)
      split at h
      · obtain rfl := Except.ok.inj h
        exact hcopy
      · split at h
        · cases h
        · split at h
          · obtain rfl := Except.ok.inj h
            exact hcopy
          · obtain ⟨converted, hconverted, h⟩ := ok_of_bind h
            obtain rfl := Except.ok.inj h
            exact .of_scalar (convert_scalar (ok_of_map_error hconverted))

/-- The conversion to an integer makes an integer. -/
theorem conversion_well_formed (h : conversion scope text = .ok effect) : effect.WellFormed := by
  obtain ⟨name, -, h⟩ := ok_of_bind h
  obtain ⟨-, h⟩ := ok_of_refused h
  obtain ⟨value, -, h⟩ := ok_of_bind h
  obtain ⟨number, -, h⟩ := ok_of_bind h
  obtain rfl := Except.ok.inj h
  exact trivial

/-- A length of an array is possible. -/
theorem to_length_ok {part : Text} {length : Nat} (h : toLength part value = .ok length) :
    1 ≤ length ∧ length ≤ 16777216 := by
  obtain ⟨number, -, h⟩ := ok_of_bind h
  split at h
  · split at h
    · obtain rfl := Except.ok.inj h
      assumption
    · cases h
  · cases h

/-- An array of zeros has the sizes that it is given. -/
theorem zero_array_sizes {element : Text} {rows : Nat} {columns : Option Nat}
    (h : zeroArray? element rows columns = some value) :
    value.isArray = true ∧ value.sizes = rows :: columns.toList := by
  unfold zeroArray? at h
  split at h
  case h_5 => cases h
  all_goals
    obtain rfl := Option.some.inj h
    simp [Value.isArray, Value.sizes, Matrix.constant]

/-- The sizes of an array are multiplied only after each of them has been checked, and it is made
only when their product is possible. -/
theorem allocation_ok (h : allocation scope text = .ok effect) :
    ∃ name array, effect = .bind name array ∧ array.isArray = true ∧ array.WellFormed := by
  obtain ⟨name, -, h⟩ := ok_of_bind h
  obtain ⟨-, h⟩ := ok_of_refused h
  obtain ⟨lengths, hlengths, h⟩ := ok_of_bind h
  obtain ⟨hsize, h⟩ := ok_of_refused h
  obtain ⟨-, hpossible⟩ := @forall_of_mapM _ _ _ (fun length ↦ 1 ≤ length ∧ length ≤ 16777216)
    (fun _ _ hlength ↦ (ok_of_bind hlength).elim fun _ hvalue ↦ to_length_ok hvalue.2) _ _ hlengths
  split at h
  · rename_i array hmade
    obtain ⟨harray, hsizes⟩ := zero_array_sizes hmade
    refine ⟨name, array, (Except.ok.inj h).symm, harray, well_formed_iff.mpr ?_⟩
    rw [hsizes]
    match lengths, hpossible, hsize with
    | [], _, _ => exact ⟨Nat.le_refl 1, by decide⟩
    | [rows], hpossible, _ => exact hpossible rows (.head _)
    | rows :: columns :: _, hpossible, hsize =>
        exact ⟨(hpossible rows (.head _)).1, (hpossible columns (.tail _ (.head _))).1,
          Nat.not_lt.mp hsize⟩
  · cases h

/-- An array that takes so many indices has this rank. -/
theorem check_rank_ok {array : Value} {given : Nat} (h : array.checkRank name given = .ok ()) :
    array.rank? = some given := by
  unfold Value.checkRank at h
  split at h
  · cases h
  · split at h
    · rename_i hgiven
      rw [hgiven]
      assumption
    · cases h

/-- The variable that is looked up exists. -/
theorem variable_ok (h : variableOf scope name = .ok value) : scope.get? name = some value := by
  unfold variableOf at h
  split at h
  · obtain rfl := Except.ok.inj h
    assumption
  · cases h

/-- Index texts have as many values as they are. -/
theorem length_of_indices {texts : List Text} {indices : List Value}
    (h : texts.mapM (Expression.evaluate scope) = .ok indices) :
    indices.length = texts.length :=
  (@forall_of_mapM _ _ _ (fun _ ↦ True) (fun _ _ _ ↦ trivial) _ _ h).1

/-- A store changes the value of a variable that is an array, in one of its elements. -/
theorem store_ok (h : store scope text = .ok effect) :
    ∃ name array indices value updated, effect = .bind name updated ∧
      scope.get? name = some array ∧ array.rank? = some indices.length ∧
      array.setElement name indices value = .ok updated := by
  obtain ⟨name, -, h⟩ := ok_of_bind h
  obtain ⟨array, harray, h⟩ := ok_of_bind h
  obtain ⟨-, h⟩ := ok_of_refused h
  obtain ⟨_, hrank, h⟩ := ok_of_bind h
  obtain ⟨indices, hindices, h⟩ := ok_of_bind h
  obtain ⟨value, -, h⟩ := ok_of_bind h
  obtain ⟨updated, hupdated, h⟩ := ok_of_bind h
  refine ⟨name, array, indices, value, updated, (Except.ok.inj h).symm, variable_ok harray, ?_,
    hupdated⟩
  rw [check_rank_ok hrank, length_of_indices hindices]

/-- A load copies an element of the value of a variable that is an array. -/
theorem load_ok (h : load scope text = .ok effect) :
    ∃ target name array indices value, effect = .bind target value ∧
      scope.get? name = some array ∧ array.rank? = some indices.length ∧
      array.element name indices = .ok value := by
  obtain ⟨target, -, h⟩ := ok_of_bind h
  obtain ⟨-, h⟩ := ok_of_refused h
  obtain ⟨name, -, h⟩ := ok_of_bind h
  obtain ⟨array, harray, h⟩ := ok_of_bind h
  obtain ⟨_, hrank, h⟩ := ok_of_bind h
  obtain ⟨indices, hindices, h⟩ := ok_of_bind h
  obtain ⟨value, hvalue, h⟩ := ok_of_bind h
  refine ⟨target, name, array, indices, value, (Except.ok.inj h).symm, variable_ok harray, ?_,
    hvalue⟩
  rw [check_rank_ok hrank, length_of_indices hindices]

/-- A store leaves an array well formed. -/
theorem store_well_formed (hscope : scope.WellFormed) (h : store scope text = .ok effect) :
    effect.WellFormed := by
  obtain ⟨name, array, indices, value, updated, rfl, harray, -, hupdated⟩ := store_ok h
  obtain ⟨-, -, -, -, -, hsizes⟩ := set_element_ok hupdated
  have hwell := well_formed_iff.mp (hscope name array harray)
  exact well_formed_iff.mpr (hsizes ▸ hwell)

/-- A load makes no array. -/
theorem load_well_formed (h : load scope text = .ok effect) : effect.WellFormed := by
  obtain ⟨target, name, array, indices, value, rfl, -, -, hvalue⟩ := load_ok h
  obtain ⟨place, -, hstored⟩ := element_ok hvalue
  exact .of_scalar (element_scalar (List.mem_of_getElem? hstored))

/-- A command that draws sets no variable. -/
theorem draw_well_formed {α : Type} {result : Except Error α} {action : α → Canvas.Action}
    (h : result.map (fun found ↦ Effect.draw (action found)) = .ok effect) :
    effect.WellFormed := by
  cases result with
  | error error => cases h
  | ok found =>
      obtain rfl := Except.ok.inj h
      exact trivial

/-- A command without arguments that draws sets no variable. -/
theorem without_arguments_well_formed {command : Command} {action : Canvas.Action}
    (h : command.withoutArguments text (.draw action) = .ok effect) : effect.WellFormed := by
  unfold withoutArguments at h
  split at h
  · obtain rfl := Except.ok.inj h
    exact trivial
  · cases h

/-- A call sets no variable before the method has ended. -/
theorem invocation_well_formed (h : invocation text = .ok effect) : effect.WellFormed := by
  obtain ⟨name, -, h⟩ := ok_of_bind h
  obtain ⟨arguments, -, h⟩ := ok_of_bind h
  obtain ⟨-, h⟩ := ok_of_refused h
  obtain rfl := Except.ok.inj h
  exact trivial

/-- A command gives a variable a well-formed value. -/
theorem effect_well_formed (hscope : scope.WellFormed) {command : Command}
    (h : command.effect scope text = .ok effect) : effect.WellFormed := by
  cases command with
  | moveTo | drawTo | rectangle | triangle | circle | penColour | fill | write =>
      exact draw_well_formed h
  | clear | reset => exact without_arguments_well_formed h
  | declare kind => exact declaration_well_formed h
  | array =>
      obtain ⟨name, array, rfl, -, hwell⟩ := allocation_ok h
      exact hwell
  | poke => exact store_well_formed hscope h
  | peek => exact load_well_formed h
  | cast => exact conversion_well_formed h
  | call => exact invocation_well_formed h

end Command

/-- A statement gives a variable a well-formed value. -/
theorem statement_well_formed (hscope : scope.WellFormed) {registry : Registry} {line : Text}
    {effect : Effect} (h : registry.statement scope line = .ok effect) : effect.WellFormed := by
  unfold Registry.statement at h
  dsimp only at h
  split at h
  · cases h
  · split at h
    · unfold Registry.assign at h
      dsimp only at h
      split at h
      · cases h
      · exact Command.assignment_well_formed hscope h
    · unfold Registry.dispatch at h
      split at h
      · exact Command.effect_well_formed hscope h
      · cases h

end Commands

end PenScript
