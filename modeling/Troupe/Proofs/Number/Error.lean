import Mathlib
import Troupe.Proofs.Number.Nearest
import Troupe.Proofs.Number.Opposite

/-! # How far a result is from the exact one

Every operation computes with exact values and rounds once. So a result differs from the exact one
by a part in `2 ^ 24` at most, or by half the least number there is. Sums and differences are
multiples of that number, and are never rounded below it.

* `near_add`, `near_sub` — sums and differences.
* `near_mul`, `near_div` — products and quotients.
* `sqrt_bounds` — roots, up to a factor.
-/

namespace Troupe.Number

open Float.Model (UnpackedFloat Format totalExponent)
open Float.Model.UnpackedFloat

variable {x y : Float32}

/-! ## Sums and differences -/

theorem valueOf_decreaseExponent {sign : Sign} {mantissa : Nat} {exponent place : Int}
    {positive : 0 < mantissa} (low : place ≤ exponent) :
    ((sign.apply (decreaseExponent mantissa exponent place).1 : ℤ) : ℚ) * 2 ^ place =
      valueOf (.finite sign mantissa exponent positive) := by
  have same := value_decreaseExponent mantissa exponent place
  have down : (decreaseExponent mantissa exponent place).2 = place := by
    simp only [decreaseExponent]
    omega
  rw [down] at same
  rw [valueOf, signed_apply, signed_apply sign mantissa, mul_assoc, same, mul_assoc]

theorem near_add_fields {augend addend : UnpackedFloat} (left : Canonical augend)
    (right : Canonical addend) (small : |valueOf augend + valueOf addend| ≤ 2 ^ 126) :
    Near (ofFields32 (add .binary32 augend addend)) (valueOf augend + valueOf addend)
      (|valueOf augend + valueOf addend| / 2 ^ 24) := by
  have zero (sign : Sign) : valueOf (.zero sign) = 0 := rfl
  cases left with
  | @zero sign =>
    rw [zero, zero_add]
    refine Near.mono ?_ (by positivity : (0 : ℚ) ≤ |valueOf addend| / 2 ^ 24)
    cases right with
    | @zero sign' => cases sign <;> cases sign' <;> exact near_of_canonical .zero
    | finite short least low full => exact near_of_canonical (.finite short least low full)
  | @finite sign mantissa exponent positive short least low full =>
    cases right with
    | zero =>
      rw [zero, add_zero]
      exact (near_of_canonical (.finite short least low full)).mono (by positivity)
    | @finite sign' significand power positive' short' least' low' full' =>
      rw [← valueOf_decreaseExponent (Int.min_le_left exponent power),
        ← valueOf_decreaseExponent (Int.min_le_right exponent power), ← add_mul] at small ⊢
      rw [← Int.cast_add] at small ⊢
      exact near_normalize (by omega) .positive small

theorem near_add (finite : x.isFinite = true) (finite' : y.isFinite = true)
    (small : |value x + value y| ≤ 2 ^ 126) :
    Near (x + y) (value x + value y) (|value x + value y| / 2 ^ 24) :=
  near_add_fields (canonical_of_isFinite finite) (canonical_of_isFinite finite') small

theorem Canonical.neg {fields : UnpackedFloat} (canonical : Canonical fields) :
    Canonical fields.neg := by
  cases canonical with
  | zero => exact .zero
  | finite short least low full => exact .finite short least low full

theorem sub_fields_eq_add_neg {minuend subtrahend : UnpackedFloat} (left : Canonical minuend)
    (right : Canonical subtrahend) :
    sub .binary32 minuend subtrahend = add .binary32 minuend subtrahend.neg := by
  cases left with
  | zero => cases right <;> rfl
  | @finite sign =>
    cases right with
    | zero => rfl
    | @finite other =>
      simp only [sub, add, UnpackedFloat.neg, apply_neg_sign, Int.sub_eq_add_neg]

theorem near_sub (finite : x.isFinite = true) (finite' : y.isFinite = true)
    (small : |value x - value y| ≤ 2 ^ 126) :
    Near (x - y) (value x - value y) (|value x - value y| / 2 ^ 24) := by
  have left := canonical_of_isFinite finite
  have right := canonical_of_isFinite finite'
  have same : value x - value y = valueOf (fields32 x) + valueOf (fields32 y).neg := by
    rw [valueOf_neg, ← sub_eq_add_neg, value, value]
  rw [same] at small ⊢
  change Near (ofFields32 (sub .binary32 (fields32 x) (fields32 y))) _ _
  rw [sub_fields_eq_add_neg left right]
  exact near_add_fields left right.neg small

/-! ## Products and quotients -/

theorem near_mul (finite : x.isFinite = true) (finite' : y.isFinite = true)
    (small : |value x * value y| ≤ 2 ^ 126) :
    Near (x * y) (value x * value y) (|value x * value y| / 2 ^ 24 + 1 / 2 ^ 150) := by
  change Near (ofFields32 (mul .binary32 (fields32 x) (fields32 y))) _ _
  have left := canonical_of_isFinite finite
  have right := canonical_of_isFinite finite'
  unfold value at small ⊢
  generalize fields32 x = multiplicand at *
  generalize fields32 y = multiplier at *
  have zero (sign : Sign) : valueOf (.zero sign) = 0 := rfl
  cases left with
  | zero =>
    rw [zero, zero_mul]
    cases right <;> exact (near_of_canonical .zero).mono (by positivity)
  | @finite sign mantissa exponent positive short least low full =>
    cases right with
    | zero =>
      rw [zero, mul_zero]
      exact (near_of_canonical .zero).mono (by positivity)
    | @finite sign' significand power positive' short' least' low' full' =>
      have place : exponent + power ≤ placeOf (mantissa * significand) (exponent + power) := by
        rw [← placeIn_binary32]
        exact le_placeIn_mul (by decide) positive positive' full full'
      rw [valueOf_mul_finite, abs_signed, abs_of_nonneg (by positivity)] at small
      rw [valueOf_mul_finite, abs_signed, abs_of_nonneg (by positivity)]
      exact near_rounded _ place (holds_exact _) small

theorem near_div_max (finite : x.isFinite = true) (finite' : y.isFinite = true)
    (some : value y ≠ 0) (small : |value x / value y| ≤ 2 ^ 126) :
    Near (x / y) (value x / value y) (max (|value x / value y| / 2 ^ 24) (1 / 2 ^ 150)) := by
  change Near (ofFields32 (div .binary32 (fields32 x) (fields32 y))) _ _
  have left := canonical_of_isFinite finite
  have right := canonical_of_isFinite finite'
  unfold value at some small ⊢
  generalize fields32 x = dividend at *
  generalize fields32 y = divisor at *
  have zero (sign : Sign) : valueOf (.zero sign) = 0 := rfl
  cases right with
  | zero => exact absurd rfl some
  | @finite sign' significand power positive' short' least' low' full' =>
    cases left with
    | zero =>
      rw [zero, zero_div]
      exact (near_of_canonical .zero).mono (le_max_of_le_right (by norm_num))
    | @finite sign mantissa exponent positive short least low full =>
      have place := le_placeIn_divCore .binary32 positive positive' exponent power
      rw [placeIn_binary32] at place
      rw [valueOf_div_finite .binary32, abs_signed, abs_of_nonneg (by positivity)] at small
      rw [valueOf_div_finite .binary32, abs_signed, abs_of_nonneg (by positivity)]
      exact near_rounded_max _ place (holds_accuracyOfFraction _ positive') small

theorem near_div (finite : x.isFinite = true) (finite' : y.isFinite = true) (some : value y ≠ 0)
    (small : |value x / value y| ≤ 2 ^ 126) :
    Near (x / y) (value x / value y) (|value x / value y| / 2 ^ 24 + 1 / 2 ^ 150) :=
  (near_div_max finite finite' some small).mono
    (max_le_add_of_nonneg (by positivity) (by norm_num))

/-! ## Roots -/

/-- A root is computed with as many bits as are kept, at least, and none of them is below the least
    place. -/
theorem le_placeOf_sqrtCore {mantissa : Nat} {exponent : Int} (positive : 0 < mantissa)
    (least : -149 ≤ exponent) :
    (sqrtCore .binary32 mantissa exponent).2.1 ≤
        placeOf (sqrtCore .binary32 mantissa exponent).1 (sqrtCore .binary32 mantissa exponent).2.1 ∧
      placeOf (sqrtCore .binary32 mantissa exponent).1 (sqrtCore .binary32 mantissa exponent).2.1 ≠
        -149 := by
  simp only [sqrtCore, targetExponent_binary32]
  generalize shown : min (exponent.ediv 2)
    (max ((totalExponent mantissa exponent + 1).ediv 2 - 24) (-149)) = target
  have halves : exponent.ediv 2 = exponent / 2 ∧
    (totalExponent mantissa exponent + 1).ediv 2 = (totalExponent mantissa exponent + 1) / 2 :=
      ⟨rfl, rfl⟩
  rw [halves.1, halves.2] at shown
  simp only [totalExponent] at shown
  have bits : 2 ^ 23 ≤ Nat.sqrt (mantissa <<< (exponent - 2 * target).toNat) := by
    rw [Nat.le_sqrt', Nat.shiftLeft_eq]
    calc (2 ^ 23) ^ 2 ≤ 2 ^ (mantissa.log2 + (exponent - 2 * target).toNat) := by
          rw [← Nat.pow_mul]
          exact Nat.pow_le_pow_right (by decide) (by omega)
      _ = 2 ^ mantissa.log2 * 2 ^ (exponent - 2 * target).toNat := Nat.pow_add _ _ _
      _ ≤ mantissa * 2 ^ (exponent - 2 * target).toNat :=
          Nat.mul_le_mul_right _ (Nat.log2_self_le (Nat.ne_of_gt positive))
  have long : 23 ≤ (Nat.sqrt (mantissa <<< (exponent - 2 * target).toNat)).log2 :=
    (Nat.le_log2 (by omega)).mpr bits
  simp only [placeOf, totalExponent]
  omega

theorem sqrtCore_bounds {mantissa : Nat} (positive : 0 < mantissa) (exponent : Int) :
    (((sqrtCore .binary32 mantissa exponent).1 : ℚ) *
        2 ^ (sqrtCore .binary32 mantissa exponent).2.1) ^ 2 ≤ mantissa * 2 ^ exponent ∧
      (mantissa : ℚ) * 2 ^ exponent <
        (2 * ((sqrtCore .binary32 mantissa exponent).1 *
          2 ^ (sqrtCore .binary32 mantissa exponent).2.1)) ^ 2 := by
  have low : 2 * (sqrtCore .binary32 mantissa exponent).2.1 ≤ exponent := by
    have half : (sqrtCore .binary32 mantissa exponent).2.1 ≤ exponent / 2 := Int.min_le_left _ _
    omega
  have root : (sqrtCore .binary32 mantissa exponent).1 =
      Nat.sqrt
        (mantissa <<< (exponent - 2 * (sqrtCore .binary32 mantissa exponent).2.1).toNat) := rfl
  rw [root]
  generalize (sqrtCore .binary32 mantissa exponent).2.1 = target at low
  -- The shift leaves an even power of two, and of that the root is exact.
  have scaled : (mantissa : ℚ) * 2 ^ exponent =
      ((mantissa <<< (exponent - 2 * target).toNat : ℕ) : ℚ) * (2 ^ target) ^ 2 := by
    rw [Nat.shiftLeft_eq]
    push_cast
    rw [mul_assoc, ← zpow_natCast, Int.toNat_of_nonneg (by omega), pow_two, ← zpow_add₀ two_ne_zero,
      ← zpow_add₀ two_ne_zero]
    congr 2
    ring
  have some : 1 ≤ mantissa <<< (exponent - 2 * target).toNat := by
    rw [Nat.shiftLeft_eq]
    exact Nat.mul_pos positive (Nat.two_pow_pos _)
  rw [scaled]
  generalize mantissa <<< (exponent - 2 * target).toNat = radicand at some
  have below : ((Nat.sqrt radicand : ℕ) : ℚ) ^ 2 ≤ radicand := by
    exact_mod_cast Nat.sqrt_le' radicand
  have above : (radicand : ℚ) < ((Nat.sqrt radicand : ℕ) + 1) ^ 2 := by
    exact_mod_cast Nat.lt_succ_sqrt' radicand
  have one : (1 : ℚ) ≤ (Nat.sqrt radicand : ℕ) := by
    exact_mod_cast Nat.le_sqrt'.mpr some
  have scale : (0 : ℚ) < (2 ^ target) ^ 2 := by positivity
  rw [mul_pow, mul_pow, mul_pow]
  constructor
  · exact mul_le_mul_of_nonneg_right below scale.le
  · rw [← mul_assoc, ← mul_pow]
    refine mul_lt_mul_of_pos_right (above.trans_le ?_) scale
    gcongr
    linarith

/-- A root is rounded from a number that is at most twice the part of it that is computed. -/
theorem exists_near_sqrt {mantissa : Nat} {exponent : Int} (some : 0 < mantissa)
    (short : mantissa < 2 ^ 24) (least : -149 ≤ exponent) (low : exponent ≤ 104) :
    ∃ root part : ℚ,
      Near (ofFields32 (sqrt .binary32 (.finite .positive mantissa exponent some))) root
        (part / 2 ^ 24) ∧
      part ≤ root ∧ root ≤ 2 * part ∧ 0 < part ∧ part ^ 2 ≤ mantissa * 2 ^ exponent ∧
      (mantissa : ℚ) * 2 ^ exponent < (2 * part) ^ 2 := by
  obtain ⟨place, top⟩ := le_placeOf_sqrtCore some least
  obtain ⟨below, above⟩ := sqrtCore_bounds some exponent
  obtain ⟨root, holds, less⟩ := exists_holds (sqrtCore .binary32 mantissa exponent).1
    (sqrtCore .binary32 mantissa exponent).2.2
  have rounds : sqrt .binary32 (.finite .positive mantissa exponent some) =
      roundWithAccuracy .binary32 .positive (sqrtCore .binary32 mantissa exponent).1
        (sqrtCore .binary32 mantissa exponent).2.1
        (sqrtCore .binary32 mantissa exponent).2.2 := rfl
  rw [rounds]
  generalize (sqrtCore .binary32 mantissa exponent).1 = whole at *
  generalize (sqrtCore .binary32 mantissa exponent).2.1 = target at *
  -- The rounding error is half a place, and a whole part above zero is no smaller than its place.
  have half := half_placeOf_le place top
  have scale : (0 : ℚ) < 2 ^ target := by positivity
  have one : (1 : ℚ) ≤ whole := by
    rcases Nat.eq_zero_or_pos whole with rfl | more
    · norm_num at above
      exact absurd above (not_lt.mpr (by positivity))
    · exact_mod_cast more
  have range : (mantissa : ℚ) * 2 ^ exponent ≤ (2 ^ 64) ^ 2 := by
    have bits : (mantissa : ℚ) ≤ 2 ^ 24 := by exact_mod_cast short.le
    calc (mantissa : ℚ) * 2 ^ exponent ≤ 2 ^ 24 * 2 ^ (104 : ℤ) := by
          gcongr
          norm_num
      _ = (2 ^ 64) ^ 2 := by norm_num
  have least := mul_le_mul_of_nonneg_right holds.le_of_accuracy scale.le
  have twice : root * 2 ^ target ≤ 2 * (whole * 2 ^ target) := by
    rw [← mul_assoc]
    exact mul_le_mul_of_nonneg_right (by linarith) scale.le
  have small : root * 2 ^ target ≤ 2 ^ 126 := by
    have most : whole * 2 ^ target ≤ (2 : ℚ) ^ 64 :=
      le_of_sq_le_sq (below.trans range) (by positivity)
    linarith
  have near := (near_roundWithAccuracy .positive place holds small).mono half
  refine ⟨root * 2 ^ target, whole * 2 ^ target, ?_, least, twice, by positivity, below, above⟩
  simpa [Sign.apply] using near

/-- The square of a root is within a factor of 16 of what the root is taken of. -/
theorem sqrt_bounds (finite : x.isFinite = true) (positive : 0 < value x) :
    x.sqrt.isFinite = true ∧ 0 < value x.sqrt ∧ value x / 16 ≤ value x.sqrt ^ 2 ∧
      value x.sqrt ^ 2 ≤ 16 * value x := by
  have canonical := canonical_of_isFinite finite
  suffices computed : ∃ root part : ℚ, Near x.sqrt root (part / 2 ^ 24) ∧
      part ≤ root ∧ root ≤ 2 * part ∧ 0 < part ∧ part ^ 2 ≤ value x ∧
      value x < (2 * part) ^ 2 by
    obtain ⟨root, part, near, least, most, some, below, above⟩ := computed
    obtain ⟨lower, upper⟩ := abs_le.mp near.close
    have low : part / 2 ≤ value x.sqrt := by linarith
    have high : value x.sqrt ≤ 3 * part := by linarith
    refine ⟨near.finite, by linarith, ?_, ?_⟩ <;> nlinarith
  change ∃ root part, Near (ofFields32 (sqrt .binary32 (fields32 x))) root (part / 2 ^ 24) ∧ _
  unfold value at positive ⊢
  generalize fields32 x = radicand at *
  cases canonical with
  | zero => exact absurd positive (by simp [valueOf])
  | @finite sign mantissa exponent some short least low full =>
    cases sign with
    | negative => exact absurd valueOf_negative_neg (not_lt.mpr positive.le)
    | positive =>
      rw [valueOf_positive]
      exact exists_near_sqrt some short least low

end Troupe.Number
