import PenScript.Proofs.Expression.Concatenation
import PenScript.Proofs.Expression.Reading
import PenScript.Proofs.Value.Arrays

/-!
# Numbers and the contents of arrays

An expression cannot look into an array. It may hand one on, and it may join the text of one to
other texts, but every operator refuses it, with a failure that names its type only. So when the
elements of some arrays change and nothing else, an expression whose value is a number keeps that
value (`Expression.evaluate_number_alike`).

Two values are alike when they are the same or two arrays of one type. No operator tells them apart
(`Value.Alike.indistinct`), so a formula ends alike in scopes with values that are alike, and gives
one number in both when it gives a number.
-/

namespace PenScript

/-- The two values are the same, or two arrays of one type. -/
inductive Value.Alike : Value → Value → Prop where
  | same (value : Value) : Alike value value
  | arrays {value twin : Value} : value.isArray = true → twin.isArray = true →
      value.typeName = twin.typeName → Alike value twin

/-- The two scopes have the same variables, with values that are alike. -/
def Scope.Alike (scope after : Scope) : Prop :=
  ∀ name, Option.Rel Value.Alike (scope.get? name) (after.get? name)

namespace Value.Alike

variable {value twin left right other : Value}

/-- A number is alike to itself only. -/
theorem eq_of_number (h : Alike value twin) (hnumber : value.isNumber = true) : twin = value := by
  cases h with
  | same => rfl
  | arrays harray _ _ => cases (not_array_of_number hnumber).symm.trans harray

/-- What tells of an array its type only does not tell values apart that are alike. -/
theorem map_eq {α : Type} {f : Value → α} (typed : Text → α) (h : Alike value twin)
    (hf : ∀ array, array.isArray = true → f array = typed array.typeName) : f value = f twin := by
  cases h with
  | same => rfl
  | arrays harray hother htype => rw [hf value harray, hf twin hother, htype]

/-- The failure to find a number. -/
abbrev noNumber (found : Text) : Fault :=
  .typeMismatch ⟨"number".toList, found⟩

/-- An operator refuses an array on either side. -/
theorem apply_eq (hleft : Alike left value) (hright : Alike right twin)
    (operator : ArithmeticOperator) : operator.apply left right = operator.apply value twin := by
  have hfirst := hleft.map_eq (f := fun left ↦ operator.apply left right)
    (fun found ↦ .error (noNumber found)) fun array harray ↦ by
      cases array <;> first | rfl | cases harray
  have hsecond := hright.map_eq (f := operator.apply value)
    (fun found ↦ match value.real? with
      | none => .error (noNumber value.typeName)
      | some _ => .error (noNumber found)) fun array harray ↦ by
        cases array <;> first | (cases value <;> rfl) | cases harray
  exact hfirst.trans hsecond

/-- An array has no opposite. -/
theorem negate_eq (h : Alike value twin) : Arithmetic.negate value = Arithmetic.negate twin :=
  h.map_eq (fun found ↦ .error (noNumber found)) fun array harray ↦ by
    cases array <;> first | rfl | cases harray

/-- An array is no number after a plus sign either. -/
theorem to_number_eq (h : Alike value twin) : value.toNumber = twin.toNumber :=
  h.map_eq (fun found ↦ .error ⟨"number".toList, found⟩) fun array harray ↦ by
    cases array <;> first | rfl | cases harray

/-- An array is no truth value. -/
theorem truth_eq (h : Alike value twin) : Expression.truth value = Expression.truth twin :=
  h.map_eq (fun found ↦ .error (.typeMismatch ⟨"boolean".toList, found⟩)) fun array harray ↦ by
    cases array <;> first | rfl | cases harray

/-- An array is equal to nothing that it may be compared with. -/
theorem are_equal_eq (hleft : Alike left value) (hright : Alike right twin) :
    Comparison.areEqual left right = Comparison.areEqual value twin := by
  have hfirst := hleft.map_eq (f := fun left ↦ Comparison.areEqual left right)
    (fun found ↦ .error (.typeMismatch ⟨found, right.typeName⟩)) fun array harray ↦ by
      cases array <;> first | (cases right <;> rfl) | cases harray
  have hsecond := hright.map_eq (f := Comparison.areEqual value)
    (fun found ↦ .error (.typeMismatch ⟨value.typeName, found⟩)) fun array harray ↦ by
      cases array <;> first | (cases value <;> rfl) | cases harray
  exact hfirst.trans hsecond

/-- An array has no place in the order of numbers. -/
theorem order_eq (hleft : Alike left value) (hright : Alike right twin) :
    Comparison.order left right = Comparison.order value twin := by
  have hfirst := hleft.map_eq (f := fun left ↦ Comparison.order left right)
    (fun found ↦ .error (noNumber found)) fun array harray ↦ by
      cases array <;> first | rfl | cases harray
  have hsecond := hright.map_eq (f := Comparison.order value)
    (fun found ↦ match value.real? with
      | none => .error (noNumber value.typeName)
      | some _ => .error (noNumber found)) fun array harray ↦ by
        cases array <;> first | (cases value <;> rfl) | cases harray
  exact hfirst.trans hsecond

/-- A comparison refuses an array on either side. -/
theorem compare_eq (hleft : Alike left value) (hright : Alike right twin)
    (comparison : Comparison) : comparison.apply left right = comparison.apply value twin := by
  cases comparison <;>
    simp only [Comparison.apply, hleft.are_equal_eq hright, hleft.order_eq hright]

/-- No operator looks into an array. -/
theorem indistinct : Indistinct Alike where
  refl := .same
  apply_eq := apply_eq
  negate_eq := negate_eq
  to_number_eq := to_number_eq
  truth_eq := truth_eq
  compare_eq := compare_eq

end Value.Alike

namespace Expression

variable {scope after : Scope}

/-- An expression whose value is a number has this value in every scope that is alike. It has no
quotes, because its value would be a text then. -/
theorem evaluate_number_alike (hscope : scope.Alike after) {text : Text} {number : Value}
    (h : evaluate scope text = .ok number) (hnumber : number.isNumber = true) :
    evaluate after text = .ok number := by
  have hvalue : value scope text = .ok number := ok_of_map_error h
  have hkept : value after text = .ok number := by
    by_cases hquote : '"' ∈ text
    · obtain ⟨string, rfl⟩ := string_of_quote hquote hvalue
      cases hnumber
    · have hplain (scope : Scope) : value scope text = formula scope text :=
        if_neg (mt List.contains_iff_mem.mp hquote)
      have hnear : scope.NearOn Value.Alike after text := fun name _ ↦ hscope name
      have halike := formula_near Value.Alike.indistinct hnear
      rw [hplain] at hvalue ⊢
      rw [hvalue] at halike
      generalize formula after text = result at halike ⊢
      cases halike with
      | ok htwin => rw [htwin.eq_of_number hnumber]
  rw [evaluate, hkept]
  rfl

end Expression

end PenScript
