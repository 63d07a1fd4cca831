import PenScript.Proofs.Value.Arrays

/-!
# Places of elements

Indices lead to a place among the elements of an array, and a store sets the element there. What
comes of it is said by two facts. After a store the indices denote what the array keeps of the value
(`element_stored`). Indices that denote other numbers lead to another place, also in a matrix, whose
rows are stored one behind the other (`place_injective`), and so they denote what they did before
(`element_kept`).
-/

namespace PenScript

variable {array value updated : Value} {name : Text} {indices others : List Value} {place : Nat}

/-- The numbers that indices denote: a real number is truncated. -/
def indexNumbers (indices : List Value) : Except Error (List Int64) :=
  indices.mapM fun index ↦ index.toInteger.mapError .typeMismatch

/-- Indices that denote numbers are numbers. -/
theorem number_of_index {numbers : List Int64} (h : indexNumbers indices = .ok numbers) :
    ∀ index ∈ indices, index.isNumber = true := by
  intro index hmem
  obtain ⟨number, -, hnumber⟩ := ok_of_mapM h index hmem
  cases index with
  | integer | real => rfl
  | boolean | string | integerArray | integerMatrix | realArray | realMatrix => cases hnumber

/-- An index within bounds is the number that it denotes. -/
theorem to_index_number {index : Value} {length found : Nat}
    (h : index.toIndex name length = .ok found) :
    ∃ number, index.toInteger.mapError Error.typeMismatch = .ok number ∧ number.toInt = found := by
  obtain ⟨number, hnumber, h⟩ := ok_of_bind h
  refine ⟨number, hnumber, ?_⟩
  unfold Integer.toNat? at h
  split at h
  · rename_i hnat
    split at hnat
    · obtain rfl := Option.some.inj hnat
      split at h
      · obtain rfl := Except.ok.inj h
        omega
      · cases h
    · cases hnat
  · cases h

/-- Cells of a matrix are stored at one place only when they are in one row and one column. -/
theorem cell_injective {columns row column other next : Nat} (hcolumn : column < columns)
    (hnext : next < columns) (h : row * columns + column = other * columns + next) :
    row = other ∧ column = next := by
  have hrow (row : Nat) {column : Nat} (hlt : column < columns) :
      (row * columns + column) / columns = row := by
    rw [Nat.mul_comm, Nat.mul_add_div (Nat.zero_lt_of_lt hlt), Nat.div_eq_of_lt hlt, Nat.add_zero]
  have hsame : row = other := by rw [← hrow row hcolumn, h, hrow other hnext]
  subst hsame
  exact ⟨rfl, Nat.add_left_cancel h⟩

/-- The place in an array of one dimension is the number of its index. -/
theorem array_place_numbers {length : Nat}
    (h : Value.arrayPlace name length indices = .ok place) :
    ∃ number, indexNumbers indices = .ok [number] ∧ number.toInt = place := by
  unfold Value.arrayPlace at h
  split at h
  · obtain ⟨number, hnumber, hplace⟩ := to_index_number h
    refine ⟨number, ?_, hplace⟩
    rw [indexNumbers, List.mapM_cons, hnumber]
    rfl
  · cases h

/-- The row and the column of a matrix are the numbers of the indices. -/
theorem matrix_place_numbers {rows columns row column : Nat}
    (h : Value.matrixPlace name rows columns indices = .ok (row, column)) :
    ∃ first second, indexNumbers indices = .ok [first, second] ∧ first.toInt = row ∧
      second.toInt = column := by
  unfold Value.matrixPlace at h
  split at h
  · obtain ⟨first, hfirst, h⟩ := ok_of_bind h
    obtain ⟨second, hsecond, h⟩ := ok_of_bind h
    obtain ⟨rfl, rfl⟩ := Prod.mk.inj (Except.ok.inj h)
    obtain ⟨number, hnumber, hrow⟩ := to_index_number hfirst
    obtain ⟨other, hother, hcolumn⟩ := to_index_number hsecond
    refine ⟨number, other, ?_, hrow, hcolumn⟩
    rw [indexNumbers, List.mapM_cons, hnumber, List.mapM_cons, hother]
    rfl
  · cases h

/-- A place in a matrix belongs to a row and a column. -/
theorem matrix_place_ok {rows columns : Nat}
    (h : (Value.matrixPlace name rows columns indices).map
      (fun cell ↦ cell.1 * columns + cell.2) = .ok place) :
    ∃ row column, Value.matrixPlace name rows columns indices = .ok (row, column) ∧
      column < columns ∧ row * columns + column = place := by
  cases hplace : Value.matrixPlace name rows columns indices with
  | error error =>
      rw [hplace] at h
      cases h
  | ok cell =>
      rw [hplace] at h
      exact ⟨cell.1, cell.2, rfl, (matrix_place_lt hplace).2, Except.ok.inj h⟩

/-- Two lists of indices that lead to one place in an array denote the same numbers. -/
theorem place_injective (h : array.place name indices = .ok place)
    (hother : array.place name others = .ok place) :
    ∃ numbers, indexNumbers indices = .ok numbers ∧ indexNumbers others = .ok numbers := by
  cases array with
  | integer | real | boolean | string => cases h
  | integerArray items | realArray items =>
      obtain ⟨number, hnumber, hplace⟩ := array_place_numbers h
      obtain ⟨other, hnext, hsame⟩ := array_place_numbers hother
      obtain rfl := Int64.toInt_inj.mp (hplace.trans hsame.symm)
      exact ⟨[number], hnumber, hnext⟩
  | integerMatrix cells | realMatrix cells =>
      -- The bounds of the columns keep a cell from being taken for one in another row.
      obtain ⟨row, column, hcell, hlt, hplace⟩ := matrix_place_ok h
      obtain ⟨other, next, hnext, hbelow, hsame⟩ := matrix_place_ok hother
      obtain ⟨rfl, rfl⟩ := cell_injective hlt hbelow (hplace.trans hsame.symm)
      obtain ⟨first, second, hnumbers, hrow, hcolumn⟩ := matrix_place_numbers hcell
      obtain ⟨third, fourth, hothers, hthird, hfourth⟩ := matrix_place_numbers hnext
      obtain rfl := Int64.toInt_inj.mp (hrow.trans hthird.symm)
      obtain rfl := Int64.toInt_inj.mp (hcolumn.trans hfourth.symm)
      exact ⟨[first, second], hnumbers, hothers⟩

/-- Indices that lead to a place denote an element. -/
theorem element_of_place (h : array.place name indices = .ok place) :
    ∃ value, array.element name indices = .ok value := by
  cases array with
  | integer | real | boolean | string => cases h
  | integerArray items | realArray items =>
      have hplace : Value.arrayPlace name items.size indices = .ok place := h
      rw [Value.element, hplace]
      exact ⟨_, rfl⟩
  | integerMatrix cells | realMatrix cells =>
      obtain ⟨row, column, hplace, -, -⟩ := matrix_place_ok h
      rw [Value.element, hplace]
      exact ⟨_, rfl⟩

/-- Indices denote the element at the place that they lead to. -/
theorem element_iff : array.element name indices = .ok value ↔
    ∃ place, array.place name indices = .ok place ∧ array.elements[place]? = some value := by
  refine ⟨element_ok, fun ⟨place, hplace, hvalue⟩ ↦ ?_⟩
  obtain ⟨found, hfound⟩ := element_of_place hplace
  obtain ⟨other, hother, hstored⟩ := element_ok hfound
  obtain rfl := Except.ok.inj (hplace.symm.trans hother)
  rw [hfound, ← Option.some.inj (hvalue.symm.trans hstored)]

/-- After a store the indices denote what the array keeps of the value. -/
theorem element_stored (h : array.setElement name indices value = .ok updated) :
    ∃ stored, array.kept? value = some stored ∧ updated.element name indices = .ok stored := by
  obtain ⟨place, stored, hplace, hkept, hlt, helements, hsizes⟩ := set_element_kept h
  refine ⟨stored, hkept, element_iff.mpr ⟨place, ?_, ?_⟩⟩
  · rw [Value.place, hsizes]
    exact hplace
  · rw [helements, List.getElem?_set_self hlt]

/-- After a store, indices that denote other numbers denote the element that they did before. -/
theorem element_kept (h : array.setElement name indices value = .ok updated) {found : Value}
    (hfound : array.element name others = .ok found)
    (hother : indexNumbers others ≠ indexNumbers indices) :
    updated.element name others = .ok found := by
  obtain ⟨place, stored, hplace, -, -, helements, hsizes⟩ := set_element_kept h
  obtain ⟨next, hnext, hvalue⟩ := element_iff.mp hfound
  refine element_iff.mpr ⟨next, ?_, ?_⟩
  · rw [Value.place, hsizes]
    exact hnext
  · have hne : place ≠ next := by
      rintro rfl
      obtain ⟨numbers, hindices, hothers⟩ := place_injective hplace hnext
      exact hother (hothers.trans hindices.symm)
    rw [helements, List.getElem?_set_ne hne, hvalue]

end PenScript
