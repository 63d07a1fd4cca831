import PenScript.Proofs.Arithmetic.Integers

/-!
# Progressions

A counting loop over integers goes through a progression: from a start, by a step that is not zero,
as long as the limit is not passed. Its terms are whole numbers without bounds, so the term after
the last one in range is there even if it is not representable. `in_range_term_iff` counts the terms
in range, and `representable_term` says that those are representable.
-/

namespace PenScript

open Integer

/-- The numbers from a start by a step, up or down to a limit. -/
structure Progression where
  start : Int64
  limit : Int64
  step : Int64
  step_ne_zero : step ≠ 0

namespace Progression

variable (range : Progression)

/-- A term of the progression. -/
def term (index : Nat) : Int :=
  range.start.toInt + index * range.step.toInt

/-- The number has not passed the limit in the direction of the step. -/
def InRange (number : Int) : Prop :=
  if 0 < range.step.toInt then number ≤ range.limit.toInt else range.limit.toInt ≤ number

instance (number : Int) : Decidable (range.InRange number) := by
  unfold InRange
  infer_instance

/-- The number of terms in range. -/
def count : Nat :=
  (max 0 ((range.limit.toInt - range.start.toInt).fdiv range.step.toInt + 1)).toNat

@[simp] theorem term_zero : range.term 0 = range.start.toInt := by
  simp [term]

theorem term_succ (index : Nat) : range.term (index + 1) = range.term index + range.step.toInt := by
  unfold term
  rw [Int.natCast_succ, Int.add_mul, Int.one_mul, Int.add_assoc]

/-- The step goes up or down. -/
theorem step_pos_or_neg : 0 < range.step.toInt ∨ range.step.toInt < 0 := by
  have hstep := mt to_int_eq_zero_iff.mp range.step_ne_zero
  omega

/-- The terms in range are the first ones, as many as there are steps from the start to the limit,
and one more. -/
theorem in_range_term_iff (index : Nat) : range.InRange (range.term index) ↔ index < range.count := by
  have hcount : index < range.count ↔
      (index : Int) ≤ (range.limit.toInt - range.start.toInt).fdiv range.step.toInt := by
    unfold count
    omega
  rw [hcount, InRange, term]
  rcases range.step_pos_or_neg with hstep | hstep
  · rw [if_pos hstep, Int.fdiv_eq_ediv_of_nonneg _ (Int.le_of_lt hstep),
      Int.le_ediv_iff_mul_le hstep]
    omega
  · rw [if_neg (by omega), ← Int.neg_fdiv_neg, Int.fdiv_eq_ediv_of_nonneg _ (by omega),
      Int.le_ediv_iff_mul_le (by omega), Int.mul_neg]
    omega

example : count ⟨1, 10, 3, by decide⟩ = 4 ∧ count ⟨10, 1, -2, by decide⟩ = 5 ∧
    count ⟨3, 1, 1, by decide⟩ = 0 := by decide

/-- A term in range lies between the start and the limit, so it is representable. -/
theorem representable_term {index : Nat} (h : index < range.count) :
    Representable (range.term index) := by
  have hrange := (range.in_range_term_iff index).mpr h
  have hstart := representable_iff.mp ⟨range.start, rfl⟩
  have hlimit := representable_iff.mp ⟨range.limit, rfl⟩
  rw [representable_iff]
  unfold InRange at hrange
  unfold term at hrange ⊢
  rcases range.step_pos_or_neg with hstep | hstep
  · have hsteps : 0 ≤ index * range.step.toInt :=
      Int.mul_nonneg (Int.natCast_nonneg index) (Int.le_of_lt hstep)
    rw [if_pos hstep] at hrange
    omega
  · have hsteps : index * range.step.toInt ≤ 0 :=
      Int.mul_nonpos_of_nonneg_of_nonpos (Int.natCast_nonneg index) (Int.le_of_lt hstep)
    rw [if_neg (by omega)] at hrange
    omega

end Progression

end PenScript
