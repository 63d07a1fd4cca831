import Mathlib.Data.Int.DivMod
import PenScript.Arithmetic

/-!
# Arithmetic on integers

An integer result is the mathematical one. `Integer.of_int_eq_some_iff` says when a number is
representable, and the operators are read off from it: a sum, a difference, a product and an
opposite are exact or an overflow, and a remainder is exact whenever the quotient that it belongs to
is representable (`integer_arithmetic`).

Of all quotients without a remainder one is not representable, that of the least integer by minus
one (`quotient_not_representable_iff`). It is not an overflow but a real number, as quotients that
are not whole are.
-/

namespace PenScript

namespace Integer

/-- The number is the value of a 64-bit integer. -/
def Representable (number : Int) : Prop :=
  ∃ exact : Int64, exact.toInt = number

theorem representable_iff {number : Int} :
    Representable number ↔ -9223372036854775808 ≤ number ∧ number < 9223372036854775808 := by
  constructor
  · rintro ⟨exact, rfl⟩
    exact ⟨exact.le_toInt, exact.toInt_lt⟩
  · rintro ⟨hleast, hlargest⟩
    exact ⟨Int64.ofInt number, Int64.toInt_ofInt_of_le hleast hlargest⟩

/-- What `ofInt?` finds is the integer of that value. -/
theorem of_int_eq_some_iff {number : Int} {exact : Int64} :
    ofInt? number = some exact ↔ exact.toInt = number := by
  unfold ofInt?
  constructor
  · intro h
    split at h
    · rename_i hrange
      obtain rfl := Option.some.inj h
      exact Int64.toInt_ofInt_of_le hrange.1 hrange.2
    · cases h
  · rintro rfl
    rw [if_pos (representable_iff.mp ⟨exact, rfl⟩), Int64.ofInt_toInt]

theorem of_int_eq_none_iff {number : Int} : ofInt? number = none ↔ ¬ Representable number := by
  rw [Option.eq_none_iff_forall_ne_some, Representable, not_exists]
  exact forall_congr' fun exact ↦ not_congr of_int_eq_some_iff

/-- Zero is the one integer of value zero. -/
theorem to_int_eq_zero_iff {number : Int64} : number.toInt = 0 ↔ number = 0 :=
  Int64.toInt_inj (y := 0)

/-- The remainder of a number that is not positive is not positive. -/
theorem tmod_nonpos {dividend : Int} (divisor : Int) (h : dividend ≤ 0) :
    dividend.tmod divisor ≤ 0 := by
  have := Int.tmod_nonneg divisor (a := -dividend) (by omega)
  rw [Int.neg_tmod] at this
  omega

/-- No remainder is larger than its dividend, so it is representable. -/
theorem representable_tmod (dividend : Int64) (divisor : Int) :
    Representable (dividend.toInt.tmod divisor) := by
  have hrange := representable_iff.mp ⟨dividend, rfl⟩
  have hsize : (dividend.toInt.tmod divisor).natAbs ≤ dividend.toInt.natAbs := by
    rw [Int.natAbs_tmod]
    exact Nat.mod_le _ _
  have hsign : dividend.toInt ≤ 0 → dividend.toInt.tmod divisor ≤ 0 := tmod_nonpos divisor
  have hpositive := Int.tmod_nonneg (a := dividend.toInt) divisor
  rw [representable_iff]
  omega

/-- A quotient is no larger than its dividend, so at most one is not representable. -/
theorem quotient_not_representable_iff {dividend divisor : Int64} :
    ¬ Representable (dividend.toInt.tdiv divisor.toInt) ↔
      dividend = Int64.minValue ∧ divisor = -1 := by
  constructor
  · intro h
    have hrange := representable_iff.mp ⟨dividend, rfl⟩
    have hsize := Int.natAbs_tdiv_le_natAbs dividend.toInt divisor.toInt
    rw [representable_iff] at h
    have hleast : dividend.toInt = -9223372036854775808 := by omega
    have hquotient : dividend.toInt.tdiv divisor.toInt = 9223372036854775808 := by omega
    -- The product of the quotient and the divisor differs from the dividend by the remainder.
    have hremainder := Int.tmod_def dividend.toInt divisor.toInt
    have hnegative := tmod_nonpos divisor.toInt (by omega : dividend.toInt ≤ 0)
    obtain ⟨remainder, hrepresented⟩ := representable_tmod dividend divisor.toInt
    have hleft := representable_iff.mp ⟨remainder, rfl⟩
    have hzero : divisor.toInt ≠ 0 := by
      intro hzero
      rw [hzero, Int.tdiv_zero] at hquotient
      omega
    rw [hquotient] at hremainder
    have hdivisor : divisor.toInt = -1 := by omega
    exact ⟨Int64.toInt_inj.mp hleast, Int64.toInt_inj.mp hdivisor⟩
  · rintro ⟨rfl, rfl⟩
    rw [representable_iff]
    decide

theorem quotient_eq {dividend divisor : Int64} (h : divisor ≠ 0) :
    quotient? dividend divisor = ofInt? (dividend.toInt.tdiv divisor.toInt) :=
  if_neg h

/-- There is a remainder when there is a quotient. -/
theorem remainder_eq_some {dividend divisor : Int64} (hdivisor : divisor ≠ 0)
    (hquotient : Representable (dividend.toInt.tdiv divisor.toInt)) :
    ∃ exact : Int64, exact.toInt = dividend.toInt.tmod divisor.toInt ∧
      remainder? dividend divisor = some exact := by
  obtain ⟨quotient, hquotient⟩ := hquotient
  obtain ⟨exact, hexact⟩ := representable_tmod dividend divisor.toInt
  refine ⟨exact, hexact, ?_⟩
  rw [remainder?, quotient_eq hdivisor, of_int_eq_some_iff.mpr hquotient, Option.map_some, ← hexact,
    Int64.ofInt_toInt]

/-- The remainder is zero when the divisor divides the dividend. -/
theorem remainder_eq_zero_iff {dividend divisor : Int64} (hdivisor : divisor ≠ 0)
    (hquotient : Representable (dividend.toInt.tdiv divisor.toInt)) :
    remainder? dividend divisor = some 0 ↔ divisor.toInt ∣ dividend.toInt := by
  obtain ⟨exact, hexact, hfound⟩ := remainder_eq_some hdivisor hquotient
  rw [hfound, Option.some_inj, ← to_int_eq_zero_iff, hexact, Int.dvd_iff_tmod_eq_zero]

/-- There is no remainder when there is no quotient. -/
theorem remainder_eq_none {dividend divisor : Int64} (hdivisor : divisor ≠ 0)
    (hquotient : ¬ Representable (dividend.toInt.tdiv divisor.toInt)) :
    remainder? dividend divisor = none := by
  rw [remainder?, quotient_eq hdivisor, of_int_eq_none_iff.mpr hquotient, Option.map_none]

end Integer

open Integer

/-- The result is the integer of this value, or the overflow of the operator when there is no such
integer. -/
def ArithmeticOperator.IsExact (operator : ArithmeticOperator) (number : Int)
    (result : Except Fault Value) : Prop :=
  (∃ exact : Int64, exact.toInt = number ∧ result = .ok (.integer exact)) ∨
    ¬ Representable number ∧ result = .error (.overflow operator)

theorem exact_of_int (operator : ArithmeticOperator) (number : Int) :
    operator.IsExact number (operator.exact (ofInt? number)) := by
  cases h : ofInt? number with
  | some exact => exact .inl ⟨exact, of_int_eq_some_iff.mp h, rfl⟩
  | none => exact .inr ⟨of_int_eq_none_iff.mp h, rfl⟩

/-- A division of integers: by zero it is an error, a whole quotient that is representable is exact,
and every other quotient is a real number. -/
theorem apply_divide (dividend divisor : Int64) :
    divisor = 0 ∧ ArithmeticOperator.apply .divide (.integer dividend) (.integer divisor) =
        .error .divisionByZero ∨
      divisor ≠ 0 ∧ ((∃ quotient : Int64, quotient.toInt * divisor.toInt = dividend.toInt ∧
          ArithmeticOperator.apply .divide (.integer dividend) (.integer divisor) =
            .ok (.integer quotient)) ∨
        (¬ divisor.toInt ∣ dividend.toInt ∨ dividend = Int64.minValue ∧ divisor = -1) ∧
          ArithmeticOperator.apply .divide (.integer dividend) (.integer divisor) =
            .ok (.real (Real.ofInteger dividend / Real.ofInteger divisor))) := by
  rw [ArithmeticOperator.apply, ArithmeticOperator.applyIntegers]
  by_cases hzero : divisor = 0
  · exact .inl ⟨hzero, if_pos hzero⟩
  · refine .inr ⟨hzero, ?_⟩
    rw [if_neg hzero]
    by_cases hquotient : Representable (dividend.toInt.tdiv divisor.toInt)
    · by_cases hwhole : divisor.toInt ∣ dividend.toInt
      · rw [if_pos ((remainder_eq_zero_iff hzero hquotient).mpr hwhole)]
        obtain ⟨quotient, hquotient⟩ := hquotient
        refine .inl ⟨quotient, by rw [hquotient, Int.tdiv_mul_cancel hwhole], ?_⟩
        rw [quotient_eq hzero, of_int_eq_some_iff.mpr hquotient]
        rfl
      · rw [if_neg (mt (remainder_eq_zero_iff hzero hquotient).mp hwhole)]
        exact .inr ⟨.inl hwhole, rfl⟩
    · rw [remainder_eq_none hzero hquotient]
      exact .inr ⟨.inr (quotient_not_representable_iff.mp hquotient), rfl⟩

/-- A remainder of integers: by zero it is an error, otherwise it is exact, and an overflow where
the quotient is not representable. -/
theorem apply_remainder (dividend divisor : Int64) :
    divisor = 0 ∧ ArithmeticOperator.apply .remainder (.integer dividend) (.integer divisor) =
        .error .divisionByZero ∨
      divisor ≠ 0 ∧ ((∃ remainder : Int64,
          remainder.toInt = dividend.toInt.tmod divisor.toInt ∧
            ArithmeticOperator.apply .remainder (.integer dividend) (.integer divisor) =
              .ok (.integer remainder)) ∨
        ¬ Representable (dividend.toInt.tdiv divisor.toInt) ∧
          ArithmeticOperator.apply .remainder (.integer dividend) (.integer divisor) =
            .error (.overflow .remainder)) := by
  rw [ArithmeticOperator.apply, ArithmeticOperator.applyIntegers]
  by_cases hzero : divisor = 0
  · exact .inl ⟨hzero, if_pos hzero⟩
  · refine .inr ⟨hzero, ?_⟩
    rw [if_neg hzero]
    by_cases hquotient : Representable (dividend.toInt.tdiv divisor.toInt)
    · obtain ⟨remainder, hremainder, hfound⟩ := remainder_eq_some hzero hquotient
      exact .inl ⟨remainder, hremainder, by rw [hfound]; rfl⟩
    · exact .inr ⟨hquotient, by rw [remainder_eq_none hzero hquotient]; rfl⟩

/-- Sums, differences, products and opposites of integers are exact or an overflow. A division by
zero is an error. A quotient is the exact integer when there is one, and it is a real number only
when the divisor does not divide the dividend or the whole quotient is not representable, which is
so of the least integer by minus one. A remainder is exact, but an overflow in that same case. -/
theorem integer_arithmetic (left right : Int64) :
    ArithmeticOperator.add.IsExact (left.toInt + right.toInt)
      (ArithmeticOperator.apply .add (.integer left) (.integer right)) ∧
    ArithmeticOperator.subtract.IsExact (left.toInt - right.toInt)
      (ArithmeticOperator.apply .subtract (.integer left) (.integer right)) ∧
    ArithmeticOperator.multiply.IsExact (left.toInt * right.toInt)
      (ArithmeticOperator.apply .multiply (.integer left) (.integer right)) ∧
    ArithmeticOperator.subtract.IsExact (-left.toInt) (Arithmetic.negate (.integer left)) ∧
    (right = 0 ∧
        ArithmeticOperator.apply .divide (.integer left) (.integer right) =
          .error .divisionByZero ∧
        ArithmeticOperator.apply .remainder (.integer left) (.integer right) =
          .error .divisionByZero ∨
      right ≠ 0 ∧
        ((∃ quotient : Int64, quotient.toInt * right.toInt = left.toInt ∧
            ArithmeticOperator.apply .divide (.integer left) (.integer right) =
              .ok (.integer quotient)) ∨
          (¬ right.toInt ∣ left.toInt ∨ left = Int64.minValue ∧ right = -1) ∧
            ArithmeticOperator.apply .divide (.integer left) (.integer right) =
              .ok (.real (Real.ofInteger left / Real.ofInteger right))) ∧
        ((∃ remainder : Int64, remainder.toInt = left.toInt.tmod right.toInt ∧
            ArithmeticOperator.apply .remainder (.integer left) (.integer right) =
              .ok (.integer remainder)) ∨
          (left = Int64.minValue ∧ right = -1) ∧
            ArithmeticOperator.apply .remainder (.integer left) (.integer right) =
              .error (.overflow .remainder))) := by
  refine ⟨exact_of_int .add _, exact_of_int .subtract _, exact_of_int .multiply _,
    exact_of_int .subtract _, ?_⟩
  rcases apply_divide left right with ⟨hzero, hdivide⟩ | ⟨hzero, hdivide⟩
  · rcases apply_remainder left right with ⟨-, hremainder⟩ | ⟨hother, -⟩
    · exact .inl ⟨hzero, hdivide, hremainder⟩
    · exact absurd hzero hother
  · rcases apply_remainder left right with ⟨hother, -⟩ | ⟨-, hremainder⟩
    · exact absurd hother hzero
    · rw [quotient_not_representable_iff] at hremainder
      exact .inr ⟨hzero, hdivide, hremainder⟩

/-- Minus one divides the least integer, the quotient is not representable, and the result is not an
overflow. -/
theorem least_integer_by_minus_one :
    (-1 : Int64).toInt ∣ Int64.minValue.toInt ∧
      ¬ Representable (Int64.minValue.toInt.tdiv (-1 : Int64).toInt) ∧
      ArithmeticOperator.apply .divide (.integer Int64.minValue) (.integer (-1)) =
        .ok (.real (Real.ofInteger Int64.minValue / Real.ofInteger (-1))) :=
  ⟨by decide, quotient_not_representable_iff.mpr ⟨rfl, rfl⟩, rfl⟩

end PenScript
