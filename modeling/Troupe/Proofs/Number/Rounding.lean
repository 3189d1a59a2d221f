import Mathlib
import Troupe.Number.Conversion

/-! # Rounding into single precision

A result is rounded to 24 bits and packed. Neither step changes its sign or makes it `NaN`, and
it overflows to infinity only if its exponent is above 104 then. Rounding up carries into one
more bit at most, so a magnitude below `2 ^ 127` stays finite whatever its bits are.

* `Signed`, `Fits` — numbers of a sign, and those of them that are finite in single precision.
* `fields32_ofFields32_finite`, `fits_of_isFinite` — what packing makes of a number.
* `rounded_of_small`, `rounded_round` — what rounding makes of it.
-/

namespace Troupe.Number

open Float.Model (UnpackedFloat Format totalExponent)
open Float.Model.UnpackedFloat

/-! ## Packing -/

/-- A number with this sign, be it zero, finite or infinite. -/
inductive Signed (sign : Sign) : UnpackedFloat → Prop
  | infinity : Signed sign (.infinity sign)
  | zero : Signed sign (.zero sign)
  | finite {mantissa : Nat} {exponent : Int} {positive : 0 < mantissa} :
      Signed sign (.finite sign mantissa exponent positive)

/-- A zero or a finite number with this sign, mantissa and exponent being in the range of single
    precision. -/
inductive Fits (sign : Sign) : UnpackedFloat → Prop
  | zero : Fits sign (.zero sign)
  | finite {mantissa : Nat} {exponent : Int} {positive : 0 < mantissa}
      (short : mantissa < 2 ^ 24) (low : exponent ≤ 104) :
      Fits sign (.finite sign mantissa exponent positive)

theorem Fits.signed {sign : Sign} {fields : UnpackedFloat} (fits : Fits sign fields) :
    Signed sign fields := by
  cases fits with
  | zero => exact .zero
  | finite => exact .finite

theorem Fits.isFinite {sign : Sign} {fields : UnpackedFloat} (fits : Fits sign fields) :
    fields.isFinite = true := by
  cases fits <;> rfl

theorem Signed.isNaN_eq_false {sign : Sign} {fields : UnpackedFloat}
    (signed : Signed sign fields) : fields.isNaN = false := by
  cases signed <;> rfl

theorem mantissa_lt_of_unpack {format : Format} {bits : BitVec format.numBits} {sign : Sign}
    {mantissa : Nat} {exponent : Int} {positive : 0 < mantissa}
    (unpacks : unpack format bits = .finite sign mantissa exponent positive) :
    mantissa < 2 ^ format.mantissaBits := by
  unfold unpack at unpacks
  dsimp only at unpacks
  split at unpacks
  · split at unpacks <;> cases unpacks
  · split at unpacks
    · split at unpacks
      · cases unpacks
      · cases unpacks
        exact Nat.lt_of_lt_of_le (BitVec.isLt _)
          (Nat.pow_le_pow_right (by decide) (by simp [Format.mantissaBits]))
    · cases unpacks
      exact BitVec.isLt _

theorem fits_unpack (bits : BitVec Format.binary32.numBits)
    (bounded : unpackExponent bits ≠ -1#_) :
    Fits (Sign.ofBitVec (unpackSign bits)) (unpack .binary32 bits) := by
  have below : (unpackExponent bits).toNat ≤ 254 := by
    have inRange : (unpackExponent bits).toNat < 2 ^ 8 := (unpackExponent bits).isLt
    have differs : (unpackExponent bits).toNat ≠ 255 := fun full =>
      bounded (BitVec.eq_of_toNat_eq full)
    omega
  have bias : Format.binary32.exponentBias = 127 := by decide
  unfold unpack
  dsimp only
  rw [if_neg bounded, bias]
  split
  case isTrue subnormal =>
    -- Subnormal numbers share the least exponent, and without any bits they are zero.
    split
    case isTrue => exact .zero
    case isFalse =>
      exact .finite (Nat.lt_of_lt_of_le (BitVec.isLt _) (by decide)) (by rw [subnormal]; decide)
  case isFalse => exact .finite (BitVec.isLt _) (by omega)

theorem fits_unpack_packComponents (sign : Sign) {exponent : BitVec 8} (mantissa : BitVec 23)
    (bounded : exponent ≠ -1#8) :
    Fits sign (unpack .binary32 (packComponents .binary32 sign exponent mantissa)) := by
  have fits := fits_unpack (packComponents .binary32 sign exponent mantissa)
    (by rw [unpackExponent_packComponents]; exact bounded)
  rwa [unpackSign_packComponents, Sign.ofBitVec_toBitVec] at fits

/-- What a finite number comes to in single precision: infinity if its exponent is too large,
    and otherwise a number of the same sign. -/
theorem fields32_ofFields32_finite (sign : Sign) (mantissa : Nat) (exponent : Int)
    (positive : 0 < mantissa) :
    (105 ≤ exponent ∧
        fields32 (ofFields32 (.finite sign mantissa exponent positive)) = .infinity sign) ∨
      (exponent ≤ 104 ∧
        Fits sign (fields32 (ofFields32 (.finite sign mantissa exponent positive)))) := by
  have bias : Format.binary32.exponentBias = 127 := by decide
  have unpacks (fields : UnpackedFloat) :
      fields32 (ofFields32 fields) = unpack .binary32 (pack .binary32 fields) := rfl
  rw [unpacks]
  unfold pack
  dsimp only
  rw [bias]
  split
  case isTrue large =>
    left
    refine ⟨by omega, ?_⟩
    cases sign <;> rfl
  case isFalse small =>
    right
    refine ⟨by omega, ?_⟩
    split
    case isTrue =>
      -- With the bias the exponents up to 104 stay below the one that has all bits set.
      refine fits_unpack_packComponents sign _ fun full => ?_
      have biased := congrArg BitVec.toNat full
      simp at biased small
      omega
    case isFalse => exact fits_unpack_packComponents sign _ (by decide)

theorem isNaN_ofFields32 (fields : UnpackedFloat) : (ofFields32 fields).isNaN = fields.isNaN := by
  cases fields with
  | notANumber => rfl
  | infinity sign | zero sign => cases sign <;> rfl
  | finite sign mantissa exponent positive =>
    change (fields32 (ofFields32 _)).isNaN = false
    rcases fields32_ofFields32_finite sign mantissa exponent positive with ⟨_, packed⟩ | ⟨_, fits⟩
    · rw [packed]
      rfl
    · exact fits.signed.isNaN_eq_false

theorem Signed.packed {sign : Sign} {fields : UnpackedFloat} (signed : Signed sign fields) :
    Signed sign (fields32 (ofFields32 fields)) := by
  cases signed with
  | infinity => cases sign <;> exact .infinity
  | zero => cases sign <;> exact .zero
  | @finite mantissa exponent positive =>
    rcases fields32_ofFields32_finite sign mantissa exponent positive with ⟨_, packed⟩ | ⟨_, fits⟩
    · rw [packed]
      exact .infinity
    · exact fits.signed

theorem fits_of_isFinite {x : Float32} (finite : x.isFinite = true) :
    ∃ sign, Fits sign (fields32 x) := by
  by_cases bounded : @unpackExponent .binary32 x.toModel.toBits.toBitVec = -1#8
  · change (unpack .binary32 x.toModel.toBits.toBitVec).isFinite = true at finite
    unfold unpack at finite
    dsimp only at finite
    rw [if_pos bounded] at finite
    split at finite <;> cases finite
  · exact ⟨_, fits_unpack _ bounded⟩

/-! ## Rounding -/

theorem mantissa_shiftRight (extended : ExtendedMantissa) (count : Nat) :
    (extended >>> count).mantissa = extended.mantissa / 2 ^ count := by
  induction count with
  | zero => simp [HShiftRight.hShiftRight, Nat.repeat]
  | succ count ih =>
    change (extended >>> count).mantissa / 2 = _
    rw [ih, Nat.div_div_eq_div_mul, Nat.pow_succ]

theorem roundedMantissa_le (extended : ExtendedMantissa) :
    extended.roundedMantissa ≤ extended.mantissa + 1 := by
  obtain ⟨mantissa, round, sticky⟩ := extended
  cases round <;> cases sticky <;>
    simp [ExtendedMantissa.roundedMantissa, ExtendedMantissa.accuracy,
      Accuracy.roundToNearestEven]
  omega

/-- A multiple of the last place that is left is represented exactly. -/
theorem shiftRight_exact (mantissa count : Nat) :
    (⟨mantissa * 2 ^ count, false, false⟩ : ExtendedMantissa) >>> count =
      ⟨mantissa, false, false⟩ := by
  induction count generalizing mantissa with
  | zero => simp [HShiftRight.hShiftRight, Nat.repeat]
  | succ count ih =>
    have shifted := ih (mantissa * 2)
    rw [Nat.mul_assoc, ← Nat.pow_succ'] at shifted
    change ((⟨mantissa * 2 ^ (count + 1), false, false⟩ : ExtendedMantissa) >>> count).shiftRightOne
      = _
    rw [shifted]
    simp [ExtendedMantissa.shiftRightOne]

/-- A number of this sign after rounding, with an exponent up to the highest. -/
inductive Rounded (sign : Sign) (highest : Int) : UnpackedFloat → Prop
  | zero : Rounded sign highest (.zero sign)
  | finite {mantissa : Nat} {exponent : Int} {positive : 0 < mantissa}
      (low : exponent ≤ highest) :
      Rounded sign highest (.finite sign mantissa exponent positive)

theorem Rounded.signed {sign : Sign} {highest : Int} {fields : UnpackedFloat}
    (rounded : Rounded sign highest fields) : Signed sign fields := by
  cases rounded with
  | zero => exact .zero
  | finite => exact .finite

theorem Rounded.fits {sign : Sign} {fields : UnpackedFloat} (rounded : Rounded sign 104 fields) :
    Fits sign (fields32 (ofFields32 fields)) := by
  cases rounded with
  | zero => cases sign <;> exact .zero
  | @finite mantissa exponent positive low =>
    rcases fields32_ofFields32_finite sign mantissa exponent positive with ⟨large, _⟩ | ⟨_, fits⟩
    · omega
    · exact fits

section Rounding

variable {format : Format} {sign : Sign} {mantissa : Nat} {exponent highest : Int}
  {accuracy : Accuracy} {fields : UnpackedFloat}

theorem exponent_shiftToTargetExponent (format : Format) (mantissa : Nat) (exponent : Int)
    (accuracy : Accuracy) :
    (shiftToTargetExponent format mantissa exponent accuracy).2 =
      max exponent (format.targetExponent (totalExponent mantissa exponent)) := by
  simp only [shiftToTargetExponent, shiftToExponent]
  omega

theorem mantissa_shiftToTargetExponent (format : Format) (mantissa : Nat) (exponent : Int)
    (accuracy : Accuracy) :
    (shiftToTargetExponent format mantissa exponent accuracy).1.mantissa =
      mantissa /
        2 ^ (format.targetExponent (totalExponent mantissa exponent) - exponent).toNat := by
  have same : (ExtendedMantissa.ofMantissaAndAccuracy mantissa accuracy).mantissa = mantissa := by
    cases accuracy with
    | exact => rfl
    | inexact order => cases order <;> rfl
  simp only [shiftToTargetExponent, shiftToExponent, mantissa_shiftRight, same]

/-- Rounding shifts twice: once to the place of the last bit that is kept, and once more if
    rounding up has carried into another bit. -/
theorem rounded_roundWithAccuracy :
    Rounded sign
      (shiftToTargetExponent format
        (shiftToTargetExponent format mantissa exponent accuracy).1.roundedMantissa
        (shiftToTargetExponent format mantissa exponent accuracy).2 .exact).2
      (roundWithAccuracy format sign mantissa exponent accuracy) := by
  unfold roundWithAccuracy
  dsimp only
  split
  case isTrue => exact .zero
  case isFalse => exact .finite (Int.le_refl _)

theorem targetExponent_binary32 (total : Int) :
    Format.binary32.targetExponent total = max (total - 24) (-149) := by
  have least : Format.binary32.minExponent = -149 := by decide
  rw [Format.targetExponent, least]
  rfl

theorem Rounded.mono {lower : Int} (rounded : Rounded sign lower fields) (le : lower ≤ highest) :
    Rounded sign highest fields := by
  cases rounded with
  | zero => exact .zero
  | finite low => exact .finite (Int.le_trans low le)

theorem rounded_of_total_le
    (low : (shiftToTargetExponent .binary32 mantissa exponent accuracy).2 ≤ 104)
    (total : totalExponent
        (shiftToTargetExponent .binary32 mantissa exponent accuracy).1.roundedMantissa
        (shiftToTargetExponent .binary32 mantissa exponent accuracy).2 ≤ 128) :
    Rounded sign 104 (roundWithAccuracy .binary32 sign mantissa exponent accuracy) := by
  refine rounded_roundWithAccuracy.mono ?_
  rw [exponent_shiftToTargetExponent, targetExponent_binary32]
  omega

theorem log2_le_of_lt {number bits : Nat} (lt : number < 2 ^ (bits + 1)) : number.log2 ≤ bits := by
  by_cases vanishes : number = 0
  · simp [vanishes, Nat.log2_zero]
  · exact Nat.lt_succ_iff.mp ((Nat.log2_lt vanishes).mpr lt)

theorem log2_le_of_le {number bits : Nat} (le : number ≤ 2 ^ bits) : number.log2 ≤ bits :=
  log2_le_of_lt (Nat.lt_of_le_of_lt le (Nat.pow_lt_pow_succ (by decide)))

theorem log2_le_of_le_div {rounded shift : Nat} (le : rounded ≤ mantissa / 2 ^ shift + 1) :
    rounded.log2 ≤ mantissa.log2 + 1 - shift := by
  have bits : mantissa < 2 ^ shift * 2 ^ (mantissa.log2 + 1 - shift) := by
    rw [← Nat.pow_add]
    exact Nat.lt_of_lt_of_le Nat.lt_log2_self (Nat.pow_le_pow_right (by decide) (by omega))
  have quotient := Nat.div_lt_of_lt_mul bits
  exact log2_le_of_le (by omega)

theorem log2_shiftLeft_le (mantissa shift : Nat) :
    (mantissa <<< shift).log2 ≤ mantissa.log2 + shift := by
  refine log2_le_of_lt ?_
  calc mantissa <<< shift = mantissa * 2 ^ shift := Nat.shiftLeft_eq _ _
    _ < 2 ^ (mantissa.log2 + 1) * 2 ^ shift :=
        Nat.mul_lt_mul_of_pos_right Nat.lt_log2_self (Nat.two_pow_pos shift)
    _ = 2 ^ (mantissa.log2 + shift + 1) := by rw [← Nat.pow_add, Nat.add_right_comm]

/-- Rounding up carries into one more bit at most. -/
theorem rounded_of_small (low : exponent ≤ 104) (small : totalExponent mantissa exponent ≤ 127) :
    Rounded sign 104 (roundWithAccuracy .binary32 sign mantissa exponent accuracy) := by
  have place := exponent_shiftToTargetExponent .binary32 mantissa exponent accuracy
  have up := roundedMantissa_le (shiftToTargetExponent .binary32 mantissa exponent accuracy).1
  rw [mantissa_shiftToTargetExponent] at up
  have bits := log2_le_of_le_div up
  rw [targetExponent_binary32] at place bits
  refine rounded_of_total_le ?_ ?_
  · rw [place]
    omega
  · simp only [totalExponent] at small place bits ⊢
    omega

theorem rounded_round (small : totalExponent mantissa exponent ≤ 127) :
    Rounded sign 104 (UnpackedFloat.round .binary32 sign mantissa exponent) := by
  -- Moving the exponent down to its target moves the mantissa up by as many bits.
  have moved := log2_shiftLeft_le mantissa
    (exponent - Format.binary32.targetExponent (totalExponent mantissa exponent)).toNat
  simp only [UnpackedFloat.round, decreaseExponent]
  rw [targetExponent_binary32] at moved ⊢
  simp only [totalExponent] at small moved ⊢
  refine rounded_of_small ?_ ?_
  · omega
  · simp only [totalExponent]
    omega

end Rounding

end Troupe.Number
