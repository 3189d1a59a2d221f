import Mathlib
import Troupe.Proofs.Number.Correct

/-! # Operations that round once

Products and quotients are computed exactly, or with so many bits that what is left out does not
matter, and rounded once. So is a number whose exponent is moved down first.

* `valueOf_mul_finite`, `valueOf_div_finite` — the exact results.
* `roundsTo_mul`, `roundsTo_div` — what they are rounded to.
* `roundsTo_round` — rounding without bits in advance.
-/

namespace Troupe.Number

open Float.Model (UnpackedFloat Format totalExponent)
open Float.Model.UnpackedFloat

variable {format : Format} {sign other : Sign} {mantissa significand : Nat} {exponent power : Int}
  {positive : 0 < mantissa} {positive' : 0 < significand}

/-- A mantissa with all bits of the format has the last bit that is kept. -/
theorem le_placeIn_of_long (long : 2 ^ format.mantissaBitsWithoutImplicit ≤ mantissa)
    (exponent : Int) : exponent ≤ placeIn format mantissa exponent := by
  have some : mantissa ≠ 0 := (Nat.lt_of_lt_of_le (Nat.two_pow_pos _) long).ne'
  have bits := (Nat.le_log2 some).mpr long
  simp only [placeIn, Format.targetExponent, totalExponent, Format.mantissaBits]
  push_cast
  omega

/-! ## Products -/

theorem apply_mul (sign other : Sign) :
    (((sign * other).apply 1 : ℤ) : ℚ) = (sign.apply 1 : ℤ) * (other.apply 1 : ℤ) := by
  have whole : (sign * other).apply 1 = sign.apply 1 * other.apply 1 := by
    cases sign <;> cases other <;> rfl
  exact_mod_cast whole

theorem valueOf_mul_finite :
    valueOf (.finite sign mantissa exponent positive) *
      valueOf (.finite other significand power positive') =
        ((sign * other).apply 1 : ℤ) *
          (((mantissa * significand : ℕ) : ℚ) * 2 ^ (exponent + power)) := by
  simp only [valueOf]
  rw [signed_apply, signed_apply other significand, apply_mul, zpow_add₀ two_ne_zero]
  push_cast
  ring

/-- A product has a bit to spare, unless neither factor has all bits; then its place is far below. -/
theorem le_placeIn_mul (least : format.minExponent ≤ 0) (positive : 0 < mantissa)
    (positive' : 0 < significand)
    (full : 2 ^ format.mantissaBitsWithoutImplicit ≤ mantissa ∨ exponent = format.minExponent)
    (full' : 2 ^ format.mantissaBitsWithoutImplicit ≤ significand ∨ power = format.minExponent) :
    exponent + power ≤ placeIn format (mantissa * significand) (exponent + power) := by
  by_cases long : 2 ^ format.mantissaBitsWithoutImplicit ≤ mantissa * significand
  · exact le_placeIn_of_long long _
  · have short : ¬ 2 ^ format.mantissaBitsWithoutImplicit ≤ mantissa := fun long' =>
      long (Nat.le_trans long' (Nat.le_mul_of_pos_right _ positive'))
    have short' : ¬ 2 ^ format.mantissaBitsWithoutImplicit ≤ significand := fun long' =>
      long (Nat.le_trans long' (Nat.le_mul_of_pos_left _ positive))
    rw [full.resolve_left short, full'.resolve_left short']
    exact Int.le_trans (by omega) (Int.le_max_right _ _)

theorem roundsTo_mul (wide : format.minExponent ≤ highestExponent format)
    (low : exponent + power ≤ placeIn format (mantissa * significand) (exponent + power)) :
    RoundsTo format (sign * other)
      (valueOf (.finite sign mantissa exponent positive) *
        valueOf (.finite other significand power positive'))
      (unpack format (pack format (mul format (.finite sign mantissa exponent positive)
        (.finite other significand power positive')))) := by
  rw [valueOf_mul_finite]
  exact roundsTo_roundWithAccuracy wide _ low (holds_exact _)

/-! ## Quotients -/

theorem apply_div (sign other : Sign) :
    (((sign / other).apply 1 : ℤ) : ℚ) = (sign.apply 1 : ℤ) / (other.apply 1 : ℤ) := by
  have same : (sign / other).apply 1 = sign.apply 1 * other.apply 1 := by
    cases sign <;> cases other <;> rfl
  rw [same, Int.cast_mul]
  cases sign <;> cases other <;> simp [Sign.apply]

/-- A quotient is computed with as many bits as are kept, at least. -/
theorem le_placeIn_divCore (format : Format) (positive : 0 < mantissa) (positive' : 0 < significand)
    (exponent power : Int) :
    (divCore format mantissa exponent significand power).2.1 ≤
      placeIn format (divCore format mantissa exponent significand power).1
        (divCore format mantissa exponent significand power).2.1 := by
  simp only [divCore, Format.targetExponent]
  generalize shown : min (exponent - power) (max (totalExponent mantissa exponent -
    totalExponent significand power - format.mantissaBits) format.minExponent) = target
  simp only [totalExponent, Format.mantissaBits] at shown
  by_cases least : target ≤ format.minExponent
  · exact Int.le_trans least (Int.le_max_right _ _)
  · refine le_placeIn_of_long ?_ _
    rw [Nat.le_div_iff_mul_le positive', Nat.shiftLeft_eq]
    generalize format.mantissaBitsWithoutImplicit = bits at *
    calc 2 ^ bits * significand ≤ 2 ^ bits * 2 ^ (significand.log2 + 1) :=
          Nat.mul_le_mul_left _ (Nat.le_of_lt Nat.lt_log2_self)
      _ = 2 ^ (bits + (significand.log2 + 1)) := (Nat.pow_add _ _ _).symm
      _ ≤ 2 ^ (mantissa.log2 + (exponent - power - target).toNat) :=
          Nat.pow_le_pow_right (by decide) (by omega)
      _ = 2 ^ mantissa.log2 * 2 ^ (exponent - power - target).toNat := Nat.pow_add _ _ _
      _ ≤ mantissa * 2 ^ (exponent - power - target).toNat :=
          Nat.mul_le_mul_right _ (Nat.log2_self_le (Nat.ne_of_gt positive))

theorem valueOf_div_finite (format : Format) :
    valueOf (.finite sign mantissa exponent positive) /
      valueOf (.finite other significand power positive') =
        ((sign / other).apply 1 : ℤ) *
          (((mantissa <<< (exponent - power -
            (divCore format mantissa exponent significand power).2.1).toNat : ℕ) : ℚ) /
              significand * 2 ^ (divCore format mantissa exponent significand power).2.1) := by
  have low : (divCore format mantissa exponent significand power).2.1 ≤ exponent - power :=
    Int.min_le_left _ _
  generalize (divCore format mantissa exponent significand power).2.1 = target at low
  have scale : (2 : ℚ) ^ (exponent - power - target).toNat * 2 ^ target =
      2 ^ exponent / 2 ^ power := by
    rw [← zpow_natCast, Int.toNat_of_nonneg (by omega), ← zpow_add₀ two_ne_zero,
      sub_add_cancel, zpow_sub₀ two_ne_zero]
  simp only [valueOf, Nat.shiftLeft_eq]
  rw [signed_apply, signed_apply other significand, apply_div]
  push_cast
  rw [mul_div_right_comm (mantissa : ℚ), mul_assoc (_ / _ : ℚ), scale]
  field_simp

theorem roundsTo_div (wide : format.minExponent ≤ highestExponent format) :
    RoundsTo format (sign / other)
      (valueOf (.finite sign mantissa exponent positive) /
        valueOf (.finite other significand power positive'))
      (unpack format (pack format (div format (.finite sign mantissa exponent positive)
        (.finite other significand power positive')))) := by
  rw [valueOf_div_finite format]
  exact roundsTo_roundWithAccuracy wide _ (le_placeIn_divCore format positive positive' _ _)
    (holds_accuracyOfFraction _ positive')

/-! ## Exponents moved down -/

theorem value_decreaseExponent (mantissa : Nat) (exponent place : Int) :
    ((decreaseExponent mantissa exponent place).1 : ℚ) *
      2 ^ (decreaseExponent mantissa exponent place).2 = mantissa * 2 ^ exponent := by
  simp only [decreaseExponent, Nat.shiftLeft_eq]
  rw [zpow_sub₀ two_ne_zero, zpow_natCast]
  push_cast
  field_simp

theorem exponent_decreaseExponent (mantissa : Nat) (exponent place : Int) :
    (decreaseExponent mantissa exponent place).2 = min exponent place := by
  simp only [decreaseExponent]
  omega

theorem placeIn_decreaseExponent (format : Format) (positive : 0 < mantissa)
    (exponent place : Int) :
    placeIn format (decreaseExponent mantissa exponent place).1
      (decreaseExponent mantissa exponent place).2 = placeIn format mantissa exponent := by
  have moved (count : Nat) : (mantissa <<< count).log2 = mantissa.log2 + count := by
    have some : mantissa <<< count ≠ 0 := by
      rw [Nat.shiftLeft_eq]
      exact Nat.ne_of_gt (Nat.mul_pos positive (Nat.two_pow_pos _))
    refine Nat.le_antisymm (log2_shiftLeft_le _ _) ((Nat.le_log2 some).mpr ?_)
    rw [Nat.shiftLeft_eq, Nat.pow_add]
    exact Nat.mul_le_mul_right _ (Nat.log2_self_le (Nat.ne_of_gt positive))
  simp only [placeIn, totalExponent, decreaseExponent, moved]
  congr 1
  push_cast
  omega

theorem roundsTo_round (wide : format.minExponent ≤ highestExponent format) (sign : Sign)
    (positive : 0 < mantissa) (exponent : Int) :
    RoundsTo format sign ((sign.apply 1 : ℤ) * (mantissa * 2 ^ exponent))
      (unpack format (pack format (UnpackedFloat.round format sign mantissa exponent))) := by
  have same := value_decreaseExponent mantissa exponent (placeIn format mantissa exponent)
  have place := placeIn_decreaseExponent format positive exponent (placeIn format mantissa exponent)
  have low := exponent_decreaseExponent mantissa exponent (placeIn format mantissa exponent)
  simp only [UnpackedFloat.round]
  rw [← placeIn, ← same]
  exact roundsTo_roundWithAccuracy wide sign (by omega) (holds_exact _)

end Troupe.Number
