import Mathlib
import Troupe.Proofs.Number.Double
import Troupe.Proofs.Number.Remainder

/-! # Floors of numbers that are close

Numbers have gaps between them, and the gaps grow with the numbers: two that differ are apart by a
part in `2 ^ 24` of either one at least. Below `2 ^ 23` there is a number half-way between two whole
numbers. So rounding does not move two exact numbers that are less than three quarters apart across
a whole number between them: their floors are the same, or one follows the other.

* `abs_value_le_of_ne` — the gaps.
* `IsNearest.sub_quarter_le`, `IsNearest.lt_of_lt_int` — what is rounded past a whole number.
* `IsNearest.floor_le` — floors of rounded numbers.
* `toInt_floorWord` — floors as words, held inside the range of words.
* `floorWord_mul_le` — floors of products with the same factor.
-/

namespace Troupe.Number

open Float.Model (UnpackedFloat Format)
open Float.Model.UnpackedFloat

variable {x y : Float32}

/-! ## Gaps -/

/-- A number is below the next one by a part in `2 ^ 24` of that. -/
theorem abs_value_le_of_abs_lt (finite : x.isFinite = true) (finite' : y.isFinite = true)
    (less : |value y| < |value x|) : |value x| ≤ 2 ^ 24 * (|value x| - |value y|) := by
  have canonical := canonical_of_isFinite finite
  have represented := isRepresented_of_isFinite finite'
  -- it is enough to know a mantissa and an exponent of the greater one
  have apart (mantissa : Nat) (exponent : Int) (same : |value x| = mantissa * 2 ^ exponent)
      (short : mantissa ≤ 2 ^ 24) (long : 2 ^ 23 < mantissa ∨ exponent = -149) :
      |value x| ≤ 2 ^ 24 * (|value x| - |value y|) := by
    have scale : (0 : ℚ) < 2 ^ exponent := by positivity
    have pred : |value y| ≤ (mantissa - 1) * 2 ^ exponent :=
      represented.abs_le_pred mantissa exponent wide_binary32 long (same ▸ less)
    have bits : (mantissa : ℚ) * 2 ^ exponent ≤ 2 ^ 24 * 2 ^ exponent :=
      mul_le_mul_of_nonneg_right (by exact_mod_cast short) scale.le
    rw [same]
    linarith
  unfold value at *
  generalize fields32 x = fields at *
  cases canonical with
  | @zero sign =>
    rw [show valueOf (.zero sign) = 0 from rfl, abs_zero] at less
    exact absurd less (abs_nonneg _).not_gt
  | @finite sign mantissa exponent positive short least low full =>
    have magnitude : |valueOf (.finite sign mantissa exponent positive)| =
        mantissa * 2 ^ exponent := by
      rw [valueOf, signed_apply, mul_assoc, abs_signed, abs_of_nonneg (by positivity)]
    rcases full with long | rfl
    · rcases Nat.eq_or_lt_of_le long with rfl | more
      -- below the least mantissa with all bits the gap is half as wide
      · refine apart (2 ^ 24) (exponent - 1) ?_ le_rfl (.inl (by norm_num))
        rw [magnitude, zpow_sub_one₀ two_ne_zero]
        norm_num
        ring
      · exact apart mantissa exponent magnitude short.le (.inl more)
    · exact apart mantissa (-149) magnitude short.le (.inr rfl)

/-- Two numbers that differ are apart by a part in `2 ^ 24` of either one. -/
theorem abs_value_le_of_ne (finite : x.isFinite = true) (finite' : y.isFinite = true)
    (differ : x ≠ y) : |value x| ≤ 2 ^ 24 * |value x - value y| := by
  rcases lt_trichotomy |value y| |value x| with less | same | more
  · have gap := abs_value_le_of_abs_lt finite finite' less
    have triangle := abs_sub_abs_le_abs_sub (value x) (value y)
    linarith
  · rcases abs_eq_abs.mp same with equal | opposite
    -- only zeros of both signs differ and have the same value
    · by_cases none : value x = 0
      · rw [none, abs_zero]
        positivity
      · refine absurd (eq_of_fields32 finite ?_) differ
        exact (isRepresented_of_isFinite finite).eq_of_valueOf_ne_zero
          (isRepresented_of_isFinite finite') equal.symm none
    · have twice : |value x - value y| = 2 * |value x| := by
        rw [opposite, sub_neg_eq_add, ← two_mul, abs_mul, abs_two]
      have nonneg := abs_nonneg (value x)
      linarith
  · have gap := abs_value_le_of_abs_lt finite' finite more
    have triangle := abs_sub_abs_le_abs_sub (value y) (value x)
    rw [abs_sub_comm] at triangle
    linarith

/-! ## Floors of rounded numbers -/

theorem exists_isRepresented_int {factor exponent : ℤ} (short : |factor| < 2 ^ 24)
    (least : -149 ≤ exponent) (low : exponent ≤ 104) :
    ∃ fields, IsRepresented .binary32 fields ∧ valueOf fields = factor * 2 ^ exponent := by
  rw [Int.abs_eq_natAbs] at short
  have short : factor.natAbs < 2 ^ 24 := by exact_mod_cast short
  obtain ⟨fields, represented, same⟩ :=
    @exists_isRepresented .binary32 factor.natAbs exponent short least low
  rcases Int.natAbs_eq factor with positive | negative
  · exact ⟨fields, represented, by rw [same, positive]; simp⟩
  · refine ⟨fields.neg, represented.neg, ?_⟩
    rw [valueOf_neg, same, negative]
    simp

/-- The number half-way to the whole number before is a number as well, so what is rounded to a
    whole number or above it is not more than a quarter below it. -/
theorem IsNearest.sub_quarter_le {q : ℚ} {fields : UnpackedFloat} {whole : ℤ}
    (nearest : IsNearest .binary32 q fields) (least : -2 ^ 23 < whole) (most : whole ≤ 2 ^ 23)
    (reached : whole ≤ valueOf fields) : (whole : ℚ) - 1 / 4 ≤ q := by
  obtain ⟨half, isRepresented, middle⟩ :=
    @exists_isRepresented_int (2 * whole - 1) (-1) (by rw [abs_lt]; omega) (by decide) (by decide)
  push_cast at middle
  norm_num at middle
  by_contra! less
  exact absurd reached (nearest.lt_of_lt_middle isRepresented (by linarith) (by linarith)).not_ge

/-- What is rounded to less than a whole number was less. -/
theorem IsNearest.lt_of_lt_int {q : ℚ} {fields : UnpackedFloat} {whole : ℤ}
    (nearest : IsNearest .binary32 q fields) (small : |whole| < 2 ^ 24)
    (below : valueOf fields < whole) : q < whole := by
  obtain ⟨limit, isRepresented, same⟩ :=
    @exists_isRepresented_int whole 0 small (by decide) (by decide)
  rw [zpow_zero, mul_one] at same
  by_contra! reached
  have kept := isRepresented.isNearest.le_of_le wide_binary32 nearest (same.trans_le reached)
  linarith

/-- Rounding does not go beyond the limit by a whole number. -/
theorem IsNearest.abs_lt_of_small {q : ℚ} {fields : UnpackedFloat}
    (nearest : IsNearest .binary32 q fields) (small : |q| < 2 ^ 23 + 1 / 2) :
    |valueOf fields| < 2 ^ 23 + 1 := by
  obtain ⟨limit, isRepresented, same⟩ :=
    @exists_isRepresented_int (2 ^ 23) 0 (by norm_num) (by decide) (by decide)
  norm_num at same
  refine nearest.abs_lt_of_lt_middle isRepresented (by rw [same]; norm_num) ?_
  rw [same]
  norm_num at small ⊢
  linarith

/-- Numbers that are less than three quarters apart do not have a whole number and its predecessor
    between their roundings. -/
theorem IsNearest.floor_le {q q' : ℚ} {fields other : UnpackedFloat}
    (nearest : IsNearest .binary32 q fields) (nearest' : IsNearest .binary32 q' other)
    (small : |q| < 2 ^ 23 + 1 / 2) (small' : |q'| < 2 ^ 23 + 1 / 2) (close : q - q' < 3 / 4) :
    ⌊valueOf fields⌋ ≤ ⌊valueOf other⌋ + 1 := by
  by_contra! far
  obtain ⟨_, above⟩ := abs_lt.mp (nearest.abs_lt_of_small small)
  obtain ⟨below, _⟩ := abs_lt.mp (nearest'.abs_lt_of_small small')
  have reached := Int.floor_le (valueOf fields)
  have passed : valueOf other < (⌊valueOf fields⌋ - 1 : ℤ) := Int.floor_lt.mp (by omega)
  generalize ⌊valueOf fields⌋ = whole at *
  have most : whole ≤ 2 ^ 23 := by
    have bound : (whole : ℚ) < 2 ^ 23 + 1 := by linarith
    exact Int.lt_add_one_iff.mp (by exact_mod_cast bound)
  have least : -2 ^ 23 < whole := by
    have bound : (-2 ^ 23 - 1 : ℚ) < (whole - 1 : ℤ) := by linarith
    have cast : (-2 ^ 23 - 1 : ℤ) < whole - 1 := by exact_mod_cast bound
    omega
  have up := nearest.sub_quarter_le least most reached
  have down := nearest'.lt_of_lt_int (by rw [abs_lt]; omega) passed
  push_cast at down
  linarith

/-! ## Floors as words -/

theorem toInt_ofIntClamp (number : ℤ) :
    (Int32.ofIntClamp number).toInt = max (-2 ^ 31) (min (2 ^ 31 - 1) number) := by
  have least : Int32.minValue.toInt = -2 ^ 31 := rfl
  have most : Int32.maxValue.toInt = 2 ^ 31 - 1 := rfl
  unfold Int32.ofIntClamp
  split
  case isTrue above =>
    split
    case isTrue below =>
      rw [Int32.toInt_ofIntLE]
      omega
    case isFalse beyond => omega
  case isFalse beyond => omega

theorem floor_signed (signed : ℤ) (exponent : ℤ) :
    ⌊(signed : ℚ) * 2 ^ exponent⌋ =
      if 0 ≤ exponent then signed * powerOfTwo exponent.toNat
      else signed / powerOfTwo (-exponent).toNat := by
  split
  case isTrue nonneg =>
    have whole : (signed : ℚ) * 2 ^ exponent = (signed * powerOfTwo exponent.toNat : ℤ) := by
      rw [Int.cast_mul, Int.cast_natCast, cast_powerOfTwo, ← zpow_natCast,
        Int.toNat_of_nonneg nonneg]
    rw [whole, Int.floor_intCast]
  case isFalse negative =>
    have quotient : (signed : ℚ) * 2 ^ exponent = signed / (powerOfTwo (-exponent).toNat : ℕ) := by
      rw [cast_powerOfTwo, ← zpow_natCast, Int.toNat_of_nonneg (by omega), zpow_neg, div_inv_eq_mul]
    rw [quotient, Rat.floor_intCast_div_natCast]

theorem toInt_floorWord (finite : x.isFinite = true) :
    (floorWord x).toInt = max (-2 ^ 31) (min (2 ^ 31 - 1) ⌊value x⌋) := by
  have canonical := canonical_of_isFinite finite
  unfold floorWord value
  generalize fields32 x = fields at canonical
  cases canonical with
  | zero => simp [valueOf]
  | finite => rw [valueOf, floor_signed, ← toInt_ofIntClamp]

/-- Products with the same factor, where there are numbers half-way between whole numbers. -/
theorem floorWord_mul_le {factor : Float32} (finite : x.isFinite = true)
    (finite' : y.isFinite = true) (scales : factor.isFinite = true) (nonneg : 0 ≤ value factor)
    (small : |value x| * value factor < 2 ^ 23 + 1 / 2)
    (small' : |value y| * value factor < 2 ^ 23 + 1 / 2)
    (close : |value x - value y| * value factor < 3 / 4) :
    (floorWord (x * factor)).toInt ≤ (floorWord (y * factor)).toInt + 1 := by
  have within {z : Float32} (finite : z.isFinite = true)
      (small : |value z| * value factor < 2 ^ 23 + 1 / 2) :
      |value z * value factor| < 2 ^ 23 + 1 / 2 ∧ (z * factor).isFinite = true ∧
        IsNearest .binary32 (value z * value factor) (fields32 (z * factor)) := by
    rw [← abs_of_nonneg nonneg, ← abs_mul] at small
    have rounded := isRounded_mul finite scales
    have kept := rounded.isFinite_iff.mpr (small.trans (by norm_num))
    exact ⟨small, kept, rounded.isNearest kept⟩
  obtain ⟨small, kept, nearest⟩ := within finite small
  obtain ⟨small', kept', nearest'⟩ := within finite' small'
  have apart : value x * value factor - value y * value factor < 3 / 4 := by
    rw [← sub_mul]
    exact (mul_le_mul_of_nonneg_right (le_abs_self _) nonneg).trans_lt close
  have floors := nearest.floor_le nearest' small small' apart
  rw [toInt_floorWord kept, toInt_floorWord kept', value, value]
  omega

end Troupe.Number
