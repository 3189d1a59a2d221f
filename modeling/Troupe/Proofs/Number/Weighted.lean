import Mathlib
import Troupe.Proofs.Number.Double
import Troupe.Proofs.Number.Single

/-! # Weighted sums

A weighted sum of two finite numbers is finite, whatever the weight and the numbers are: both
products are rounded to less than their weights of `2 ^ 128`, and what the weights exceed one by is
less than what is missing there.

* `abs_mul_lt` — a product with a weight.
* `abs_one_sub_sub_le` — the other weight.
* `isFinite_weighted` — the sum.
-/

namespace Troupe.Number

open Float.Model (Format)

variable {x y weight : Float32}

/-! ## Bounds -/

theorem abs_value_le_limit32 (finite : x.isFinite = true) : |value x| ≤ limit32 := by
  have represented := isRepresented_of_isFinite finite
  have below := represented.abs_valueOf_lt wide_binary32
  rw [overflowBound_binary32] at below
  have pred := represented.abs_le_pred (2 ^ 24) 104 wide_binary32
    (by decide) (below.trans_le (by norm_num))
  unfold limit32
  norm_num at pred ⊢
  exact pred

/-! ## Products -/

/-- The number below `2 ^ 128` times a weight is not farther from the product with the largest
    number than that is. -/
theorem exists_pred {mantissa : Nat} {exponent : Int} (long : 2 ^ 23 ≤ mantissa)
    (short : mantissa < 2 ^ 24) (least : -200 ≤ exponent)
    (small : (mantissa : ℚ) * 2 ^ exponent ≤ 1) :
    ∃ fields, IsRepresented .binary32 fields ∧
      valueOf fields < 2 ^ 128 * (mantissa * 2 ^ exponent) ∧
      limit32 * (mantissa * 2 ^ exponent) <
        (valueOf fields + 2 ^ 128 * (mantissa * 2 ^ exponent)) / 2 := by
  have least' : Format.binary32.minExponent = -149 := by decide
  have highest : highestExponent .binary32 = 104 := by decide
  have bits : Format.binary32.mantissaBits = 24 := rfl
  have scale : (0 : ℚ) < 2 ^ exponent := by positivity
  have moved (places : ℤ) : (2 : ℚ) ^ (exponent + places) = 2 ^ exponent * 2 ^ places :=
    zpow_add₀ two_ne_zero _ _
  have bit : (2 : ℚ) ^ (exponent + 23) = 2 ^ 23 * 2 ^ exponent := by
    rw [moved, mul_comm]
    norm_num
  rcases Nat.eq_or_lt_of_le long with rfl | more
  -- the least mantissa with all bits: the number below has a smaller place, and is the product
  · have low : exponent + 23 ≤ 0 := by
      rw [← zpow_le_one_iff_right₀ (one_lt_two (α := ℚ)), bit]
      exact_mod_cast small
    obtain ⟨fields, represented, same⟩ :=
      @exists_isRepresented .binary32 (2 ^ 24 - 1) (exponent + 127) (by decide) (by omega)
        (by omega)
    rw [moved] at same
    refine ⟨fields, represented, ?_, ?_⟩
    · rw [same]
      norm_num
      linarith
    · rw [same, limit32]
      norm_num
      linarith
  · have low : exponent + 23 < 0 := by
      rw [← zpow_lt_one_iff_right₀ (one_lt_two (α := ℚ)), bit]
      exact (mul_lt_mul_of_pos_right (by exact_mod_cast more) scale).trans_le small
    obtain ⟨fields, represented, same⟩ :=
      @exists_isRepresented .binary32 (mantissa - 1) (exponent + 128) (by rw [bits]; omega)
        (by omega) (by omega)
    have pred : ((mantissa - 1 : Nat) : ℚ) = mantissa - 1 := by
      rw [Nat.cast_sub (by omega), Nat.cast_one]
    have most : (2 : ℚ) ^ 23 + 1 ≤ mantissa := by exact_mod_cast more
    rw [moved, pred] at same
    refine ⟨fields, represented, ?_, ?_⟩
    · rw [same]
      norm_num
      nlinarith
    · rw [same, limit32]
      norm_num
      nlinarith

/-- A number that is not too small has all bits. -/
theorem exists_full (finite : x.isFinite = true) (above : 1 / 2 ^ 30 ≤ value x) :
    ∃ (mantissa : Nat) (exponent : Int), value x = mantissa * 2 ^ exponent ∧
      2 ^ 23 ≤ mantissa ∧ mantissa < 2 ^ 24 ∧ -149 ≤ exponent := by
  have canonical := canonical_of_isFinite finite
  unfold value at above ⊢
  generalize fields32 x = fields at *
  cases canonical with
  | zero => exact absurd above (by norm_num [valueOf])
  | @finite sign mantissa exponent positive short least low full =>
    cases sign with
    | negative =>
      have below : valueOf (.finite .negative mantissa exponent positive) < 0 :=
        valueOf_negative_neg
      have positive : (0 : ℚ) < 1 / 2 ^ 30 := by norm_num
      linarith
    | positive =>
      rw [valueOf_positive] at above ⊢
      refine ⟨mantissa, exponent, rfl, full.resolve_right ?_, short, least⟩
      rintro rfl
      have bits : (mantissa : ℚ) < 2 ^ 24 := by exact_mod_cast short
      norm_num at above
      linarith

section Products

variable (finite : x.isFinite = true) (finite' : weight.isFinite = true)

include finite

theorem abs_value_mul_le (nonneg : 0 ≤ value weight) :
    |value x * value weight| ≤ limit32 * value weight := by
  rw [abs_mul, abs_of_nonneg nonneg]
  exact mul_le_mul_of_nonneg_right (abs_value_le_limit32 finite) nonneg

include finite'

theorem isFinite_mul_weight (nonneg : 0 ≤ value weight) (below : value weight ≤ 1) :
    (x * weight).isFinite = true := by
  have product := abs_value_mul_le finite nonneg
  have most : limit32 * value weight ≤ limit32 := mul_le_of_le_one_right limit32_pos.le below
  have range : limit32 < 2 ^ 128 - 2 ^ 103 := by
    unfold limit32
    norm_num
  exact (isRounded_mul finite finite').isFinite_iff.mpr (by linarith)

/-- The product with a small weight is small. -/
theorem abs_mul_lt_of_small (nonneg : 0 ≤ value weight) (small : value weight < 1 / 2 ^ 30) :
    |value (x * weight)| < 2 ^ 99 := by
  have within := isFinite_mul_weight finite finite' nonneg (small.le.trans (by norm_num))
  have product := abs_value_mul_le finite nonneg
  have zero : valueOf (.zero .positive) = 0 := rfl
  refine ((isRounded_mul finite finite').isNearest within).abs_lt_of_lt_middle .zero
    (by rw [zero]; positivity) ?_
  have most : limit32 * value weight ≤ limit32 * (1 / 2 ^ 30) :=
    mul_le_mul_of_nonneg_left small.le limit32_pos.le
  have range : limit32 * (1 / 2 ^ 30) < 2 ^ 99 / 2 := by
    unfold limit32
    norm_num
  rw [zero, zero_add]
  linarith

/-- The product with a weight is less than `2 ^ 128` times the weight. -/
theorem abs_mul_lt (above : 1 / 2 ^ 30 ≤ value weight) (below : value weight ≤ 1) :
    |value (x * weight)| < 2 ^ 128 * value weight := by
  have nonneg : 0 ≤ value weight := le_trans (by norm_num) above
  have within := isFinite_mul_weight finite finite' nonneg below
  have product := abs_value_mul_le finite nonneg
  obtain ⟨mantissa, exponent, same, long, short, least⟩ := exists_full finite' above
  obtain ⟨fields, represented, less, middle⟩ := exists_pred long short (by omega) (same ▸ below)
  rw [← same] at less middle
  exact ((isRounded_mul finite finite').isNearest within).abs_lt_of_lt_middle represented less
    (product.trans_lt middle)

end Products

/-! ## The other weight -/

/-- From a half on, weights are multiples of one place. -/
theorem exists_multiple (finite : weight.isFinite = true) (above : 1 / 2 ≤ value weight)
    (below : value weight ≤ 1) :
    ∃ mantissa : Nat, value weight = mantissa / 2 ^ 24 ∧ 2 ^ 23 ≤ mantissa ∧ mantissa ≤ 2 ^ 24 := by
  obtain ⟨mantissa, exponent, same, long, short, _⟩ :=
    exists_full finite ((by norm_num : (1 : ℚ) / 2 ^ 30 ≤ 1 / 2).trans above)
  have bit (places : ℤ) : (2 : ℚ) ^ (exponent + places) = 2 ^ places * 2 ^ exponent := by
    rw [zpow_add₀ two_ne_zero, mul_comm]
  have scale : (0 : ℚ) < 2 ^ exponent := by positivity
  rw [same] at above below
  have least : -1 < exponent + 24 := by
    rw [← zpow_lt_zpow_iff_right₀ (one_lt_two (α := ℚ)), bit]
    have bits : (mantissa : ℚ) < 2 ^ 24 := by exact_mod_cast short
    have more := mul_lt_mul_of_pos_right bits scale
    norm_num at above more ⊢
    linarith
  have low : exponent + 23 ≤ 0 := by
    rw [← zpow_le_one_iff_right₀ (one_lt_two (α := ℚ)), bit]
    have bits : (2 : ℚ) ^ 23 ≤ mantissa := by exact_mod_cast long
    have more := mul_le_mul_of_nonneg_right bits scale.le
    norm_num at below more ⊢
    linarith
  rw [same]
  rcases (by omega : exponent = -24 ∨ exponent = -23) with rfl | rfl
  · exact ⟨mantissa, by norm_num; ring, long, short.le⟩
  · have one : mantissa ≤ 2 ^ 23 := by
      have le : (mantissa : ℚ) ≤ 2 ^ 23 := by
        norm_num at below
        linarith
      exact_mod_cast le
    exact ⟨2 * mantissa, by push_cast; norm_num; ring, by omega, by omega⟩

theorem exists_isRepresented_div {mantissa : Nat} (short : mantissa ≤ 2 ^ 24) :
    ∃ fields, IsRepresented .binary32 fields ∧ valueOf fields = mantissa / 2 ^ 24 := by
  rcases Nat.lt_or_eq_of_le short with less | rfl
  · obtain ⟨fields, represented, same⟩ :=
      @exists_isRepresented .binary32 mantissa (-24) less (by decide) (by decide)
    exact ⟨fields, represented, by rw [same]; norm_num; ring⟩
  · obtain ⟨fields, represented, same⟩ :=
      @exists_isRepresented .binary32 1 0 (by decide) (by decide) (by decide)
    exact ⟨fields, represented, by rw [same]; norm_num⟩

section OneSub

variable (finite : weight.isFinite = true) (nonneg : 0 ≤ value weight) (below : value weight < 1)

include finite

theorem isRounded_one_sub : IsRounded (1 - weight) (1 - value weight) := by
  have rounded := isRounded_sub (x := 1) (by decide) finite
  rwa [value_one] at rounded

include below

/-- The other weight of a half or more is exact. -/
theorem one_sub_eq (half : 1 / 2 ≤ value weight) : value (1 - weight) = 1 - value weight := by
  obtain ⟨mantissa, same, _, short⟩ := exists_multiple finite half below.le
  obtain ⟨fields, represented, shown⟩ :=
    exists_isRepresented_div (Nat.sub_le (2 ^ 24) mantissa)
  have exact : valueOf fields = 1 - value weight := by
    rw [shown, same, Nat.cast_sub short]
    norm_num
    ring
  rw [← exact]
  exact ((exact ▸ isRounded_one_sub finite : IsRounded _ (valueOf fields)).exact represented).2

include nonneg

theorem isFinite_one_sub : (1 - weight).isFinite = true := by
  rw [(isRounded_one_sub finite).isFinite_iff, abs_lt]
  constructor <;> linarith

/-- The other weight is off by half of the place that numbers next to one have. -/
theorem abs_one_sub_sub_le : |value (1 - weight) - (1 - value weight)| ≤ 1 / 2 ^ 25 := by
  have nearest := (isRounded_one_sub finite).isNearest (isFinite_one_sub finite nonneg below)
  -- the nearest multiple of the place is a number of the format
  obtain ⟨mantissa, shown⟩ : ∃ mantissa, mantissa = ⌊(1 - value weight) * 2 ^ 24 + 1 / 2⌋₊ :=
    ⟨_, rfl⟩
  have least : (mantissa : ℚ) ≤ (1 - value weight) * 2 ^ 24 + 1 / 2 :=
    shown ▸ Nat.floor_le (by linarith)
  have most : (1 - value weight) * 2 ^ 24 + 1 / 2 < mantissa + 1 := shown ▸ Nat.lt_floor_add_one _
  have short : mantissa ≤ 2 ^ 24 := by
    have less : (mantissa : ℚ) < 2 ^ 24 + 1 := by linarith
    exact Nat.lt_succ_iff.mp (by exact_mod_cast less)
  obtain ⟨fields, represented, same⟩ := exists_isRepresented_div short
  refine (nearest.closest fields represented).trans ?_
  rw [same, abs_le]
  constructor <;> linarith

theorem one_sub_le_one : value (1 - weight) ≤ 1 := by
  have nearest := (isRounded_one_sub finite).isNearest (isFinite_one_sub finite nonneg below)
  obtain ⟨fields, represented, same⟩ := exists_isRepresented_div (le_refl (2 ^ 24))
  have most := nearest.le_of_le wide_binary32 represented.isNearest (by
    rw [same]
    norm_num
    exact nonneg)
  rw [same] at most
  norm_num at most
  exact most

theorem half_le_one_sub (half : value weight < 1 / 2) : 1 / 2 ≤ value (1 - weight) := by
  have nearest := (isRounded_one_sub finite).isNearest (isFinite_one_sub finite nonneg below)
  obtain ⟨fields, represented, same⟩ := exists_isRepresented_div (by decide : 2 ^ 23 ≤ 2 ^ 24)
  have least := represented.isNearest.le_of_le wide_binary32 nearest (by
    rw [same]
    norm_num
    linarith)
  rw [same] at least
  norm_num at least ⊢
  exact least

end OneSub

/-! ## Sums -/

/-- What is below `2 ^ 128` times a weight of a half or more is a place below it. -/
theorem abs_le_of_half_le (finite : x.isFinite = true) (weighted : weight.isFinite = true)
    (half : 1 / 2 ≤ value weight) (below : value weight ≤ 1)
    (less : |value x| < 2 ^ 128 * value weight) :
    |value x| ≤ 2 ^ 128 * value weight - 2 ^ 103 ∧
      (1 / 2 < value weight → |value x| ≤ 2 ^ 128 * value weight - 2 ^ 104) := by
  have represented := isRepresented_of_isFinite finite
  obtain ⟨mantissa, same, long, short⟩ := exists_multiple weighted half below
  rw [same] at less ⊢
  rcases Nat.eq_or_lt_of_le long with rfl | more
  · have pred : |value x| ≤ _ :=
      represented.abs_le_pred (2 ^ 24) 103 wide_binary32 (by decide)
        (less.trans_le (by norm_num))
    refine ⟨pred.trans (by norm_num), fun strict => absurd strict (by norm_num)⟩
  · have pred : |value x| ≤ _ :=
      represented.abs_le_pred mantissa 104 wide_binary32 (.inl more)
        (less.trans_le (by norm_num; linarith))
    have place : ((mantissa : ℚ) - 1) * 2 ^ (104 : ℤ) =
        2 ^ 128 * (mantissa / 2 ^ 24) - 2 ^ 104 := by
      norm_num
      ring
    rw [place] at pred
    exact ⟨pred.trans (sub_le_sub_left (by norm_num) _), fun _ => pred⟩

section Sums

variable (finite : x.isFinite = true) (finite' : y.isFinite = true)
  (weighted : weight.isFinite = true) (nonneg : 0 ≤ value weight) (below : value weight < 1)

include finite finite' weighted nonneg below

theorem abs_add_abs_lt_of_lt_half (less : value weight < 1 / 2) :
    |value (x * (1 - weight))| + |value (y * weight)| < 2 ^ 128 - 2 ^ 103 := by
  have rest := isFinite_one_sub weighted nonneg below
  have one := one_sub_le_one weighted nonneg below
  have half := half_le_one_sub weighted nonneg below less
  have close := (abs_le.mp (abs_one_sub_sub_le weighted nonneg below)).2
  have first := abs_mul_lt finite rest (by linarith) one
  have product := isFinite_mul_weight finite rest (by linarith) one
  rcases lt_or_ge (value weight) (1 / 2 ^ 30) with small | above
  -- the second product is less than what the largest number misses to the bound
  · have second := abs_mul_lt_of_small finite' weighted nonneg small
    have most := abs_value_le_limit32 product
    unfold limit32 at most
    norm_num at second most ⊢
    linarith
  · have second := abs_mul_lt finite' weighted above below.le
    obtain ⟨most, strict⟩ := abs_le_of_half_le product rest half one first
    rcases half.eq_or_lt with same | more
    · rw [← same] at most
      norm_num at most second less ⊢
      linarith
    -- the weights exceed one by half a place next to one, and the first product misses a whole one
    · have most := strict more
      norm_num at most second close ⊢
      linarith

/-- A weight of a half or more leaves an exact one to the other number. -/
theorem abs_add_abs_lt_of_half_le (half : 1 / 2 ≤ value weight) :
    |value (x * (1 - weight))| + |value (y * weight)| < 2 ^ 128 - 2 ^ 103 := by
  have other := one_sub_eq weighted below half
  obtain ⟨mantissa, same, _, short⟩ := exists_multiple weighted half below.le
  have above : 1 / 2 ^ 30 ≤ value (1 - weight) := by
    have less : mantissa + 1 ≤ 2 ^ 24 := by
      rw [same, div_lt_one (by positivity)] at below
      exact_mod_cast below
    have next : (mantissa : ℚ) + 1 ≤ 2 ^ 24 := by exact_mod_cast less
    rw [other, same]
    norm_num at next ⊢
    linarith
  have first := abs_mul_lt finite (isFinite_one_sub weighted nonneg below) above
    (one_sub_le_one weighted nonneg below)
  have product := isFinite_mul_weight finite' weighted nonneg below.le
  have second := abs_mul_lt finite' weighted ((by norm_num : (1 : ℚ) / 2 ^ 30 ≤ 1 / 2).trans half)
    below.le
  have most := (abs_le_of_half_le product weighted half below.le second).1
  rw [other] at first
  linarith

theorem isFinite_add_weighted : (x * (1 - weight) + y * weight).isFinite = true := by
  have rest := isFinite_one_sub weighted nonneg below
  have one := one_sub_le_one weighted nonneg below
  have second := isFinite_mul_weight finite' weighted nonneg below.le
  rcases lt_or_ge (value weight) (1 / 2) with less | half
  · have half := half_le_one_sub weighted nonneg below less
    have first := isFinite_mul_weight finite rest (le_trans (by norm_num) half) one
    rw [(isRounded_add first second).isFinite_iff]
    exact (abs_add_le _ _).trans_lt
      (abs_add_abs_lt_of_lt_half finite finite' weighted nonneg below less)
  · have other := one_sub_eq weighted below half
    have first := isFinite_mul_weight finite rest (by linarith) one
    rw [(isRounded_add first second).isFinite_iff]
    exact (abs_add_le _ _).trans_lt
      (abs_add_abs_lt_of_half_le finite finite' weighted nonneg below half)

end Sums

/-- A weighted sum of finite numbers is finite. -/
theorem isFinite_weighted (finite : x.isFinite = true) (finite' : y.isFinite = true)
    (nonneg : 0 ≤ weight) (below : weight < 1) :
    (x * (1 - weight) + y * weight).isFinite = true := by
  have one : (1 : Float32).isFinite = true := by decide
  have weighted := isFinite_of_le nonneg (le_of_lt below) one
  have zero : value 0 = 0 := rfl
  rw [le_iff_value (by decide) weighted, zero] at nonneg
  rw [lt_iff_value weighted one, value_one] at below
  exact isFinite_add_weighted finite finite' weighted nonneg below

end Troupe.Number
