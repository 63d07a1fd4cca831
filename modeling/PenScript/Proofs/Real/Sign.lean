import Mathlib
import PenScript.Real

/-!
# The sign of an integer as a real number

The real number nearest to an integer has the sign of the integer, and it is zero only for zero.
`direction` is the sign of a number that is not zero. Rounding a significand keeps it
(`round_finite`), and so does the packing of a number into 64 bits if the number `Fits`
(`direction_unpack_pack`).
-/

namespace PenScript.Real

open Float.Model Float.Model.UnpackedFloat

/-- The sign of a number other than zero. -/
def direction : UnpackedFloat → Option Sign
  | .finite sign _ _ _ => some sign
  | .infinity sign => some sign
  | _ => none

/-- The significand and the exponent of a finite number have room in 64 bits. -/
def Fits : UnpackedFloat → Prop
  | .finite _ significand exponent _ => significand < 2 ^ 53 ∧ leastExponent ≤ exponent
  | _ => True

section Packing

/-- The fields of a number other than zero tell its sign. -/
theorem direction_unpack (sign : Sign) {exponent : BitVec 11} {fraction : BitVec 52}
    (hnumber : exponent = -1#11 → fraction = 0#52) (hnonzero : exponent = 0#11 → fraction ≠ 0#52) :
    direction (UnpackedFloat.unpack .binary64 (packComponents .binary64 sign exponent fraction)) =
      some sign := by
  simp only [UnpackedFloat.unpack, unpackMantissa_packComponents, unpackExponent_packComponents,
    unpackSign_packComponents, Sign.ofBitVec_toBitVec]
  by_cases htop : exponent = -1#11
  · rw [if_pos htop, if_pos (hnumber htop)]
    rfl
  · rw [if_neg htop]
    by_cases hzero : exponent = 0#11
    · rw [if_pos hzero, dif_neg (hnonzero hzero)]
      rfl
    · rw [if_neg hzero]
      rfl

/-- A finite number that fits is packed as itself, or as an infinity if it is too large, and keeps its
sign. -/
theorem direction_pack_finite (sign : Sign) {significand : Nat} {exponent : Int}
    (hpositive : 0 < significand) (hroom : significand < 2 ^ 53)
    (hexponent : leastExponent ≤ exponent) :
    direction (UnpackedFloat.unpack .binary64
      (UnpackedFloat.pack .binary64 (.finite sign significand exponent hpositive))) = some sign := by
  let field := (exponent + 1023 + 52).toNat
  have hfield : 1 ≤ field := by
    rw [leastExponent] at hexponent
    omega
  simp only [UnpackedFloat.pack]
  change direction (UnpackedFloat.unpack .binary64 (if 2 ^ 11 ≤ field + 1 then _ else _)) = some sign
  split
  · exact direction_unpack sign (fun _ ↦ rfl) fun hzero ↦ absurd hzero (by decide)
  · have hvalue : (BitVec.ofNat 11 field).toNat = field := by
      rw [BitVec.toNat_ofNat]
      omega
    split
    · refine direction_unpack sign (fun htop ↦ ?_) (fun hzero ↦ ?_)
      · have hlarge : field = 2047 := hvalue.symm.trans (congrArg BitVec.toNat htop)
        omega
      · have hsmall : field = 0 := hvalue.symm.trans (congrArg BitVec.toNat hzero)
        omega
    · -- The exponent is stored as zero, so the significand, which has no leading bit, must not be.
      rename_i hshort
      change ¬ significand.log2 + 1 = 53 at hshort
      refine direction_unpack sign (fun htop ↦ absurd htop (by decide)) (fun _ hzero ↦ ?_)
      have hlength : significand.log2 < 53 := (Nat.log2_lt (by omega)).mpr hroom
      have hsmall : significand < 2 ^ 52 := (Nat.log2_lt (by omega)).mp (by omega)
      have hnothing : significand = 0 := by
        rw [← Nat.mod_eq_of_lt hsmall, ← BitVec.toNat_ofNat]
        exact congrArg BitVec.toNat hzero
      omega

/-- A number that is packed and unpacked keeps its sign. -/
theorem direction_unpack_pack {number : UnpackedFloat} (h : Fits number) :
    direction (UnpackedFloat.unpack .binary64 (number.pack .binary64)) = direction number := by
  cases number with
  | notANumber => rfl
  | zero sign => cases sign <;> rfl
  | infinity sign => exact direction_unpack sign (fun _ ↦ rfl) fun hzero ↦ absurd hzero (by decide)
  | finite sign significand exponent hpositive => exact direction_pack_finite sign hpositive h.1 h.2

/-- What is unpacked fits. -/
theorem fits_unpack (bits : BitVec 64) : Fits (UnpackedFloat.unpack .binary64 bits) := by
  unfold UnpackedFloat.unpack
  dsimp only
  split
  · split <;> trivial
  · split
    · split
      · trivial
      · refine ⟨Nat.lt_trans (BitVec.isLt _) (by decide), ?_⟩
        change (-1074 : Int) ≤ (_ - 1075) + 1
        omega
    · rename_i hnonzero
      refine ⟨BitVec.isLt _, ?_⟩
      have hfield : (@unpackExponent .binary64 bits).toNat ≠ 0 := by
        intro hzero
        exact hnonzero (BitVec.eq_of_toNat_eq hzero)
      change (-1074 : Int) ≤ _ - 1075
      omega

end Packing

section Rounding

/-- Shifting divides the significand by a power of two. -/
theorem mantissa_shift (number : ExtendedMantissa) (count : Nat) :
    (number >>> count).mantissa = number.mantissa / 2 ^ count := by
  induction count with
  | zero => exact (Nat.div_one _).symm
  | succ count ih =>
      change (number >>> count).mantissa / 2 = _
      rw [ih, Nat.div_div_eq_div_mul, Nat.pow_succ]

/-- Rounding never makes a significand smaller. -/
theorem le_rounded_mantissa (number : ExtendedMantissa) :
    number.mantissa ≤ number.roundedMantissa := by
  unfold ExtendedMantissa.roundedMantissa
  cases number.accuracy with
  | exact => exact Nat.le_refl _
  | inexact order =>
      cases order with
      | lt => exact Nat.le_refl _
      | eq => exact Nat.le_add_right _ _
      | gt => exact Nat.le_add_right _ _

/-- A significand that is shifted until it has room keeps its leading bit. -/
theorem shift_to_target {significand : Nat} {exponent : Int} (hpositive : 0 < significand)
    (hexponent : leastExponent ≤ exponent + significand.log2) (accuracy : Accuracy) :
    0 < (shiftToTargetExponent .binary64 significand exponent accuracy).1.mantissa ∧
      (shiftToTargetExponent .binary64 significand exponent accuracy).1.mantissa < 2 ^ 53 ∧
      leastExponent ≤ (shiftToTargetExponent .binary64 significand exponent accuracy).2 := by
  have htarget : Format.binary64.targetExponent (totalExponent significand exponent) =
      max (significand.log2 + 1 + exponent - 53) leastExponent := rfl
  have hshifted : (shiftToTargetExponent .binary64 significand exponent accuracy).1.mantissa =
      significand / 2 ^
        (Format.binary64.targetExponent (totalExponent significand exponent) - exponent).toNat := by
    unfold shiftToTargetExponent shiftToExponent
    rw [mantissa_shift]
    cases accuracy with
    | exact => rfl
    | inexact order => cases order <;> rfl
  rw [hshifted]
  refine ⟨?_, ?_, ?_⟩
  · refine Nat.div_pos ((Nat.le_log2 (by omega)).mp ?_) (Nat.two_pow_pos _)
    omega
  · rw [Nat.div_lt_iff_lt_mul (Nat.two_pow_pos _), ← Nat.pow_add, ← Nat.log2_lt (by omega)]
    omega
  · change leastExponent ≤ exponent +
      (Format.binary64.targetExponent (totalExponent significand exponent) - exponent).toNat
    omega

/-- A number that is rounded keeps its sign, and has room in 64 bits. -/
theorem round_finite (sign : Sign) {significand : Nat} (h : 0 < significand) :
    ∃ rounded exponent hrounded,
      UnpackedFloat.round .binary64 sign significand 0 = .finite sign rounded exponent hrounded ∧
        rounded < 2 ^ 53 ∧ leastExponent ≤ exponent := by
  -- A short significand is first filled up with zeros from the right.
  let places := (0 - Format.binary64.targetExponent (totalExponent significand 0)).toNat
  have hpositive : 0 < significand <<< places := by
    rw [Nat.shiftLeft_eq]
    exact Nat.mul_pos h (Nat.two_pow_pos _)
  have hlength : places ≤ (significand <<< places).log2 := by
    rw [Nat.le_log2 (by omega), Nat.shiftLeft_eq]
    exact Nat.le_mul_of_pos_left _ h
  -- Then it is shifted, rounded, and shifted once more, because rounding may have carried.
  let first := shiftToTargetExponent .binary64 (significand <<< places) (0 - places) .exact
  obtain ⟨hfirst, -, hleast⟩ : 0 < first.1.mantissa ∧ _ ∧ leastExponent ≤ first.2 :=
    shift_to_target hpositive (by rw [leastExponent]; omega) .exact
  obtain ⟨hsecond, hroom, hexponent⟩ :=
    shift_to_target (Nat.lt_of_lt_of_le hfirst (le_rounded_mantissa first.1))
      (by omega : leastExponent ≤ first.2 + first.1.roundedMantissa.log2) .exact
  exact ⟨_, _, hsecond, dif_neg (Nat.ne_of_gt hsecond), hroom, hexponent⟩

end Rounding

section Integers

/-- The real number nearest to a positive integer of 64 bits is positive. -/
theorem direction_to_float {number : UInt64} (h : 0 < number.toNat) :
    direction number.toFloat.toModel.unpack = some .positive := by
  obtain ⟨rounded, exponent, hrounded, hround, hfits⟩ := round_finite .positive h
  have horder : compare (number.toNat : Int) 0 = .gt := Int.compare_eq_gt.mpr (by omega)
  have hmodel : UnpackedFloat.ofUInt64 .binary64 number =
      .finite .positive rounded exponent hrounded := by
    simp only [UnpackedFloat.ofUInt64, UnpackedFloat.ofNat, UnpackedFloat.ofInt,
      UnpackedFloat.normalize, horder, Int.toNat_natCast, hround]
  change direction (UnpackedFloat.unpack .binary64
    (UnpackedFloat.pack .binary64 (UnpackedFloat.ofUInt64 .binary64 number))) = _
  rw [hmodel, direction_pack_finite .positive hrounded hfits.1 hfits.2]

/-- The opposite of a number has the opposite sign. -/
theorem direction_neg (number : Float) :
    direction (-number).toModel.unpack = (direction number.toModel.unpack).map (- ·) := by
  have hfits := fits_unpack number.toModel.toBits.toBitVec
  change direction (UnpackedFloat.unpack .binary64
    (UnpackedFloat.pack .binary64 number.toModel.unpack.neg)) = _
  change Fits number.toModel.unpack at hfits
  cases hnumber : number.toModel.unpack with
  | notANumber => rfl
  | infinity sign => exact direction_unpack_pack trivial
  | zero sign => exact direction_unpack_pack trivial
  | finite sign significand exponent hpositive =>
      rw [hnumber] at hfits
      exact direction_unpack_pack hfits

/-- The sign of the real number nearest to an integer is the sign of the integer. -/
theorem direction_of_integer (number : Int64) :
    direction (ofInteger number).toModel.unpack =
      if 0 < number.toInt then some .positive else if number.toInt < 0 then some .negative
      else none := by
  have hsize : (UInt64.ofNat number.toInt.natAbs).toNat = number.toInt.natAbs := by
    have hleast := number.le_toInt
    have hlargest := number.toInt_lt
    rw [UInt64.toNat_ofNat', Nat.mod_eq_of_lt (by omega)]
  unfold ofInteger withSign
  by_cases hnegative : number.toInt < 0
  · rw [if_pos (decide_eq_true hnegative), direction_neg, direction_to_float (by omega),
      if_neg (by omega), if_pos hnegative]
    rfl
  · rw [decide_eq_false hnegative, if_neg Bool.false_ne_true, if_neg hnegative]
    by_cases hpositive : 0 < number.toInt
    · rw [if_pos hpositive, direction_to_float (by omega)]
    · have hzero : number.toInt = 0 := by omega
      rw [if_neg hpositive, hzero]
      rfl

/-- A real number is positive if its sign is. -/
theorem pos_iff_direction {number : Float} :
    0 < number ↔ direction number.toModel.unpack = some .positive := by
  have hless : 0 < number ↔
      (UnpackedFloat.compare (.zero .positive) number.toModel.unpack == some .lt) = true :=
    decide_eq_true_iff
  rw [hless]
  cases number.toModel.unpack with
  | notANumber => exact iff_of_false Bool.false_ne_true nofun
  | zero sign => exact iff_of_false Bool.false_ne_true nofun
  | infinity sign =>
      cases sign with
      | positive => exact iff_of_true rfl rfl
      | negative => exact iff_of_false Bool.false_ne_true nofun
  | finite sign significand exponent hpositive =>
      cases sign with
      | positive => exact iff_of_true rfl rfl
      | negative => exact iff_of_false Bool.false_ne_true nofun

/-- A real number with a sign is not zero. -/
theorem direction_of_eq_zero {number : Float} (h : (number == 0) = true) :
    direction number.toModel.unpack = none := by
  change (UnpackedFloat.compare number.toModel.unpack (.zero .positive) == some .eq) = true at h
  cases hnumber : number.toModel.unpack with
  | notANumber => rfl
  | zero sign => rfl
  | infinity sign =>
      rw [hnumber] at h
      cases sign <;> cases h
  | finite sign significand exponent hpositive =>
      rw [hnumber] at h
      cases sign <;> cases h

/-- An integer and the real number nearest to it are both positive or both not. -/
theorem of_integer_pos_iff (number : Int64) : 0 < ofInteger number ↔ 0 < number.toInt := by
  rw [pos_iff_direction, direction_of_integer]
  split
  · exact iff_of_true rfl ‹_›
  · refine iff_of_false (fun hsign ↦ ?_) ‹_›
    split at hsign <;> cases hsign

/-- Zero is the one integer whose nearest real number is zero. -/
theorem of_integer_eq_zero_iff (number : Int64) : (ofInteger number == 0) = true ↔ number = 0 := by
  constructor
  · intro h
    have hsign := direction_of_integer number
    rw [direction_of_eq_zero h] at hsign
    split at hsign
    · cases hsign
    · split at hsign
      · cases hsign
      · exact Int64.toInt_inj.mp (by rw [Int64.toInt_zero]; omega)
  · rintro rfl
    decide

end Integers

end PenScript.Real
