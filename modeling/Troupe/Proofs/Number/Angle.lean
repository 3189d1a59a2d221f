import Mathlib
import Troupe.Number.Angle
import Troupe.Proofs.Number.Remainder

/-! # Sines and cosines of the program

What the power series come to is held at one before it is rounded. One is a number of the format, so
rounding does not carry a result beyond it.
-/

namespace Troupe.Number

open Float.Model (UnpackedFloat)
open Float.Model.UnpackedFloat

theorem abs_fixedPoint_le (sign : Sign) {magnitude : Nat} (le : magnitude ≤ unit) :
    |((sign.apply magnitude : ℤ) : ℚ) * 2 ^ (-(fractionBits : ℤ))| ≤ 1 := by
  have most : (magnitude : ℚ) ≤ 2 ^ fractionBits := by
    rw [← cast_powerOfTwo]
    exact_mod_cast le
  rw [signed_apply, mul_assoc, abs_signed, abs_of_nonneg (by positivity), zpow_neg, zpow_natCast]
  exact mul_inv_le_one_of_le₀ most (by positivity)

theorem ofFixedPoint_mem (sign : Sign) {magnitude : Nat} (le : magnitude ≤ unit) :
    -1 ≤ ofFixedPoint sign magnitude ∧ ofFixedPoint sign magnitude ≤ 1 := by
  have within := abs_fixedPoint_le sign le
  have rounded := isRounded_round sign magnitude (-(fractionBits : Int))
  have finite := rounded.isFinite_iff.mpr (within.trans_lt (by norm_num))
  have nearest := rounded.isNearest finite
  have one : (1 : Float32).isFinite = true := by decide
  have minusOne : (-1 : Float32).isFinite = true := by decide
  have least : value (-1) = -1 := by
    have fields : fields32 (-1) = .finite .negative (2 ^ 23) (-23) (by decide) := rfl
    rw [value, fields, valueOf_negative]
    norm_num
  obtain ⟨above, below⟩ := abs_le.mp within
  constructor
  · rw [ofFixedPoint, le_iff_value minusOne finite]
    exact (isRepresented_of_isFinite minusOne).isNearest.le_of_le wide_binary32 nearest
      (least.trans_le above)
  · rw [ofFixedPoint, le_iff_value finite one]
    exact nearest.le_of_le wide_binary32 (isRepresented_of_isFinite one).isNearest
      (below.trans_eq value_one.symm)

theorem Reduced.sine_le_unit (angle : Reduced) : angle.sine.2 ≤ unit := by
  unfold sine
  split <;> exact Nat.min_le_right _ _

theorem Reduced.cosine_le_unit (angle : Reduced) : angle.cosine.2 ≤ unit := by
  unfold cosine
  split <;> exact Nat.min_le_right _ _

theorem isBounded_angle : Trigonometry.IsBounded := by
  intro angle finite
  change (-1 ≤ sine angle ∧ sine angle ≤ 1) ∧ (-1 ≤ cosine angle ∧ cosine angle ≤ 1)
  change (fields32 angle).isFinite = true at finite
  unfold sine cosine
  cases fields : fields32 angle with
  | notANumber | infinity => simp [fields, isFinite] at finite
  | zero sign => cases sign <;> decide
  | finite =>
    exact ⟨ofFixedPoint_mem _ (Reduced.sine_le_unit _),
      ofFixedPoint_mem _ (Reduced.cosine_le_unit _)⟩

end Troupe.Number
