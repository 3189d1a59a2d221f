import Mathlib
import Troupe.Proofs.Number.Operations

/-! # How far rounding goes

Rounding to single precision keeps 24 bits of a mantissa, or as many as there are above the least
place. The result is off by half of the last bit that is kept at most.

* `placeOf` — the last bit that is kept.
* `Near` — a finite number and how far it is from an exact one.
* `near_roundWithAccuracy` — the result of rounding.
* `near_rounded`, `near_normalize` — the same in terms of the number that is rounded.
-/

namespace Troupe.Number

open Float.Model (UnpackedFloat Format totalExponent)
open Float.Model.UnpackedFloat

/-! ## Rounding -/

section Rounding

variable {sign : Sign} {mantissa : Nat} {exponent : Int} {accuracy : Accuracy}

/-- The exponent of the last bit that rounding keeps. -/
def placeOf (mantissa : Nat) (exponent : Int) : Int :=
  max (totalExponent mantissa exponent - 24) (-149)

theorem placeIn_binary32 (mantissa : Nat) (exponent : Int) :
    placeIn .binary32 mantissa exponent = placeOf mantissa exponent :=
  targetExponent_binary32 _

/-- The mantissa that rounding to single precision leaves, before a carry is moved out. -/
def roundedAt (mantissa : Nat) (exponent : Int) (accuracy : Accuracy) : Nat :=
  (ExtendedMantissa.ofMantissaAndAccuracy mantissa accuracy >>>
    (placeOf mantissa exponent - exponent).toNat).roundedMantissa

theorem roundedIn_binary32 (mantissa : Nat) (exponent : Int) (accuracy : Accuracy) :
    roundedIn .binary32 mantissa exponent accuracy = roundedAt mantissa exponent accuracy := by
  rw [roundedIn, placeIn_binary32]
  rfl

theorem roundWithAccuracy_binary32 (sign : Sign) (accuracy : Accuracy)
    (low : exponent ≤ placeOf mantissa exponent) (small : placeOf mantissa exponent ≤ 103) :
    Canonical (roundWithAccuracy .binary32 sign mantissa exponent accuracy) ∧
      valueOf (roundWithAccuracy .binary32 sign mantissa exponent accuracy) =
        (sign.apply (roundedAt mantissa exponent accuracy) : ℤ) *
          2 ^ placeOf mantissa exponent := by
  obtain ⟨x, holds, _⟩ := exists_holds mantissa accuracy
  have highest : highestExponent .binary32 = 104 := by decide
  rw [← placeIn_binary32] at low small
  have rounds := roundsAt_placeIn low holds
  have settles := settles_roundWithAccuracy sign low rounds.rounded_le
  rw [← placeIn_binary32, ← roundedIn_binary32, signed_apply, mul_assoc]
  exact ⟨canonical_iff_isRepresented.mpr (settles.isRepresented rounds (.inl (by omega))),
    settles.valueOf_eq⟩

/-- The last bit that is kept is the 24th of the number. -/
theorem half_placeOf_le (low : exponent ≤ placeOf mantissa exponent)
    (above : placeOf mantissa exponent ≠ -149) :
    (2 : ℚ) ^ placeOf mantissa exponent / 2 ≤ mantissa * 2 ^ exponent / 2 ^ 24 := by
  have place : placeOf mantissa exponent = mantissa.log2 + exponent - 23 := by
    simp only [placeOf, totalExponent] at above ⊢
    omega
  have some : mantissa ≠ 0 := by
    rintro rfl
    simp only [placeOf, totalExponent, Nat.log2_zero] at low above
    omega
  have leading : (2 : ℚ) ^ mantissa.log2 ≤ mantissa := by
    exact_mod_cast Nat.log2_self_le some
  rw [place, zpow_sub₀ two_ne_zero, zpow_add₀ two_ne_zero, zpow_natCast, div_div]
  norm_num
  gcongr

theorem placeOf_le (low : exponent ≤ placeOf mantissa exponent)
    (small : (mantissa : ℚ) * 2 ^ exponent ≤ 2 ^ 126) : placeOf mantissa exponent ≤ 103 := by
  by_cases above : placeOf mantissa exponent = -149
  · omega
  · have half := (half_placeOf_le low above).trans
      (div_le_div_of_nonneg_right small (by positivity))
    have below : (2 : ℚ) ^ placeOf mantissa exponent ≤ 2 ^ (103 : ℤ) := by
      norm_num at half ⊢
      linarith
    exact (zpow_le_zpow_iff_right₀ (by norm_num)).mp below

/-! ## Results -/

/-- A finite number that is so far from an exact one at most. -/
structure Near (result : Float32) (exact error : ℚ) : Prop where
  finite : result.isFinite = true
  close : |value result - exact| ≤ error

theorem near_roundWithAccuracy {x : ℚ} (sign : Sign) (low : exponent ≤ placeOf mantissa exponent)
    (holds : Holds (.ofMantissaAndAccuracy mantissa accuracy) x)
    (small : x * 2 ^ exponent ≤ 2 ^ 126) :
    Near (ofFields32 (roundWithAccuracy .binary32 sign mantissa exponent accuracy))
      ((sign.apply 1 : ℤ) * (x * 2 ^ exponent)) (2 ^ placeOf mantissa exponent / 2) := by
  have least := holds.le_of_accuracy
  have scaled : (mantissa : ℚ) * 2 ^ exponent ≤ 2 ^ 126 :=
    (mul_le_mul_of_nonneg_right least (by positivity)).trans small
  obtain ⟨canonical, same⟩ := roundWithAccuracy_binary32 sign accuracy low (placeOf_le low scaled)
  refine ⟨isFinite_ofFields32 canonical, ?_⟩
  have rounded :=
    (holds.shiftRight (placeOf mantissa exponent - exponent).toNat).isNearestEven.close
  rw [value_ofFields32 canonical, same, signed_apply, mul_assoc, ← mul_sub, abs_signed]
  have shift : (2 : ℚ) ^ exponent =
      2 ^ placeOf mantissa exponent / 2 ^ (placeOf mantissa exponent - exponent).toNat := by
    rw [eq_div_iff (by positivity), ← zpow_natCast, ← zpow_add₀ two_ne_zero]
    exact congrArg _ (by omega)
  rw [shift, mul_div_left_comm, mul_comm _ ((2 : ℚ) ^ placeOf mantissa exponent), ← mul_sub,
    abs_mul, abs_of_pos (by positivity : (0 : ℚ) < 2 ^ placeOf mantissa exponent),
    div_eq_mul_one_div ((2 : ℚ) ^ placeOf mantissa exponent) 2]
  exact mul_le_mul_of_nonneg_left rounded (by positivity)

theorem Near.mono {result : Float32} {exact error bound : ℚ} (near : Near result exact error)
    (le : error ≤ bound) : Near result exact bound :=
  ⟨near.finite, near.close.trans le⟩

/-- A number near to what is close to an exact one. -/
theorem Near.trans {result : Float32} {computed exact error off : ℚ}
    (near : Near result computed error) (close : |computed - exact| ≤ off) :
    Near result exact (error + off) :=
  ⟨near.finite, (abs_sub_le _ computed _).trans (add_le_add near.close close)⟩

theorem near_of_canonical {fields : UnpackedFloat} (canonical : Canonical fields) :
    Near (ofFields32 fields) (valueOf fields) 0 := by
  refine ⟨isFinite_ofFields32 canonical, ?_⟩
  rw [value_ofFields32 canonical, sub_self, abs_zero]

/-- The product or quotient of two numbers can be below all that are represented. -/
theorem near_rounded_max {x : ℚ} (sign : Sign) (low : exponent ≤ placeOf mantissa exponent)
    (holds : Holds (.ofMantissaAndAccuracy mantissa accuracy) x)
    (small : x * 2 ^ exponent ≤ 2 ^ 126) :
    Near (ofFields32 (roundWithAccuracy .binary32 sign mantissa exponent accuracy))
      ((sign.apply 1 : ℤ) * (x * 2 ^ exponent))
      (max (x * 2 ^ exponent / 2 ^ 24) (1 / 2 ^ 150)) := by
  refine (near_roundWithAccuracy sign low holds small).mono ?_
  have least := mul_le_mul_of_nonneg_right holds.le_of_accuracy
    (by positivity : (0 : ℚ) ≤ 2 ^ exponent)
  by_cases above : placeOf mantissa exponent = -149
  · refine le_max_of_le_right ?_
    rw [above]
    norm_num
  · have half := half_placeOf_le low above
    exact le_max_of_le_left (by linarith)

theorem near_rounded {x : ℚ} (sign : Sign) (low : exponent ≤ placeOf mantissa exponent)
    (holds : Holds (.ofMantissaAndAccuracy mantissa accuracy) x)
    (small : x * 2 ^ exponent ≤ 2 ^ 126) :
    Near (ofFields32 (roundWithAccuracy .binary32 sign mantissa exponent accuracy))
      ((sign.apply 1 : ℤ) * (x * 2 ^ exponent)) (x * 2 ^ exponent / 2 ^ 24 + 1 / 2 ^ 150) := by
  have least := mul_le_mul_of_nonneg_right holds.le_of_accuracy
    (by positivity : (0 : ℚ) ≤ 2 ^ exponent)
  have nonneg : (0 : ℚ) ≤ mantissa * 2 ^ exponent := by positivity
  exact (near_rounded_max sign low holds small).mono
    (max_le_add_of_nonneg (by linarith) (by norm_num))

/-- The sum or difference of two numbers has no bits below the least place. -/
theorem near_round (sign : Sign) (positive : 0 < mantissa) (least : -149 ≤ exponent)
    (small : (mantissa : ℚ) * 2 ^ exponent ≤ 2 ^ 126) :
    Near (ofFields32 (UnpackedFloat.round .binary32 sign mantissa exponent))
      ((sign.apply 1 : ℤ) * (mantissa * 2 ^ exponent)) (mantissa * 2 ^ exponent / 2 ^ 24) := by
  have same := value_decreaseExponent mantissa exponent (placeOf mantissa exponent)
  have place := placeIn_decreaseExponent .binary32 positive exponent (placeOf mantissa exponent)
  have low := exponent_decreaseExponent mantissa exponent (placeOf mantissa exponent)
  rw [placeIn_binary32, placeIn_binary32] at place
  simp only [UnpackedFloat.round]
  rw [← placeIn, placeIn_binary32]
  generalize decreaseExponent mantissa exponent (placeOf mantissa exponent) = moved at *
  obtain ⟨significand, power⟩ := moved
  dsimp only at *
  rw [← same] at small ⊢
  by_cases above : placeOf mantissa exponent = -149
  · -- No bit is dropped.
    have stays : power = placeOf significand power := by omega
    obtain ⟨canonical, value⟩ :=
      roundWithAccuracy_binary32 sign .exact (Int.le_of_eq stays) (by omega)
    have kept : roundedAt significand power .exact = significand := by
      rw [roundedAt, ← stays, Int.sub_self]
      rfl
    rw [kept, ← stays, signed_apply, mul_assoc] at value
    rw [← value]
    exact (near_of_canonical canonical).mono (by positivity)
  · have below : power ≤ placeOf significand power := by omega
    exact (near_roundWithAccuracy sign below (holds_exact _) small).mono
      (half_placeOf_le below (by omega))

theorem near_normalize {signed : ℤ} (least : -149 ≤ exponent) (zeroSign : Sign)
    (small : |(signed : ℚ) * 2 ^ exponent| ≤ 2 ^ 126) :
    Near (ofFields32 (UnpackedFloat.normalize .binary32 signed exponent zeroSign))
      (signed * 2 ^ exponent) (|(signed : ℚ) * 2 ^ exponent| / 2 ^ 24) := by
  have scale : (0 : ℚ) < 2 ^ exponent := by positivity
  rw [abs_mul, abs_of_pos scale] at small ⊢
  unfold UnpackedFloat.normalize
  split
  case h_1 below =>
    have negative := Int.compare_eq_lt.mp below
    have magnitude : (((-signed).toNat : ℕ) : ℚ) = -signed := by
      exact_mod_cast Int.toNat_of_nonneg (by omega)
    rw [abs_of_neg (by exact_mod_cast negative), ← magnitude] at small ⊢
    have near := near_round .negative (by omega) least small
    simpa [Sign.apply, magnitude] using near
  case h_2 same =>
    rw [Int.compare_eq_eq.mp same]
    have zero : Canonical (.zero zeroSign) := .zero
    simpa [valueOf] using near_of_canonical zero
  case h_3 above =>
    have positive := Int.compare_eq_gt.mp above
    have magnitude : ((signed.toNat : ℕ) : ℚ) = signed := by
      exact_mod_cast Int.toNat_of_nonneg (by omega)
    rw [abs_of_pos (by exact_mod_cast positive), ← magnitude] at small ⊢
    have near := near_round .positive (by omega) least small
    simpa [Sign.apply, magnitude] using near

end Rounding

end Troupe.Number
