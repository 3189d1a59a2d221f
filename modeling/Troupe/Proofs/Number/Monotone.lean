import Mathlib
import Troupe.Proofs.Number.Exact

/-! # The one result of rounding

Of two neighbouring numbers of a format, one has an even mantissa and the other one has not. So
correct rounding has one result only, and it keeps the order of what is rounded.

* `exists_between` — two even numbers are no neighbours.
* `IsNearest.le_of_le` — rounding keeps the order.
* `RoundsTo.unique` — its result.
-/

namespace Troupe.Number

open Float.Model (UnpackedFloat Format)
open Float.Model.UnpackedFloat

variable {format : Format} {sign : Sign} {q q' : ℚ} {fields other lower upper : UnpackedFloat}

/-! ## Neighbours -/

section Neighbours

variable {mantissa significand : Nat} {exponent power : Int}

/-- Below an even multiple of a place, the next multiple is odd. -/
theorem lt_pred_of_le (even : Even mantissa) (even' : Even significand) (above : exponent ≤ power)
    (less : (significand : ℚ) * 2 ^ power < mantissa * 2 ^ exponent) :
    (significand : ℚ) * 2 ^ power < (mantissa - 1 : Nat) * 2 ^ exponent := by
  have scale : (0 : ℚ) < 2 ^ exponent := by positivity
  have multiple : (significand : ℚ) * 2 ^ power =
      (significand * 2 ^ (power - exponent).toNat : Nat) * 2 ^ exponent := by
    push_cast
    rw [mul_assoc, ← zpow_natCast, ← zpow_add₀ two_ne_zero]
    congr 2
    omega
  rw [multiple] at less ⊢
  have below : significand * 2 ^ (power - exponent).toNat < mantissa := by
    exact_mod_cast lt_of_mul_lt_mul_right less scale.le
  obtain ⟨half, rfl⟩ := even
  obtain ⟨half', same⟩ := even'.mul_right (2 ^ (power - exponent).toNat)
  refine mul_lt_mul_of_pos_right ?_ scale
  exact_mod_cast (by omega : significand * 2 ^ (power - exponent).toNat < half + half - 1)

/-- A number that is not below zero, with what its format says of mantissa and exponent. -/
theorem IsRepresented.exists_magnitude (represented : IsRepresented format fields)
    (wide : format.minExponent ≤ highestExponent format) (even : HasEvenMantissa fields)
    (nonneg : 0 ≤ valueOf fields) :
    ∃ (mantissa : Nat) (exponent : Int), valueOf fields = mantissa * 2 ^ exponent ∧
      Even mantissa ∧ mantissa < 2 * 2 ^ format.mantissaBitsWithoutImplicit ∧
        format.minExponent ≤ exponent ∧ exponent ≤ highestExponent format ∧
          (2 ^ format.mantissaBitsWithoutImplicit ≤ mantissa ∨ exponent = format.minExponent) := by
  cases represented with
  | zero => exact ⟨0, format.minExponent, by simp [valueOf], .zero, by positivity, le_refl _,
      wide, .inr rfl⟩
  | @finite sign mantissa exponent positive short least low full =>
    cases sign with
    | positive =>
      rw [two_pow_mantissaBits] at short
      exact ⟨mantissa, exponent, rfl, even, short, least, low, full⟩
    | negative => exact absurd valueOf_negative_neg (not_lt.mpr nonneg)

theorem exists_between_of_nonneg (wide : format.minExponent ≤ highestExponent format)
    (represented : IsRepresented format lower) (represented' : IsRepresented format upper)
    (even : HasEvenMantissa lower) (evenUpper : HasEvenMantissa upper) (nonneg : 0 ≤ valueOf lower)
    (less : valueOf lower < valueOf upper) :
    ∃ middle, IsRepresented format middle ∧
      valueOf lower < valueOf middle ∧ valueOf middle < valueOf upper := by
  -- it is enough to know the mantissa and the exponent of what is between
  have found (mantissa : Nat) (exponent : Int)
      (short : mantissa < 2 * 2 ^ format.mantissaBitsWithoutImplicit)
      (least : format.minExponent ≤ exponent) (low : exponent ≤ highestExponent format)
      (above : valueOf lower < mantissa * 2 ^ exponent)
      (below : (mantissa : ℚ) * 2 ^ exponent < valueOf upper) :
      ∃ middle, IsRepresented format middle ∧
        valueOf lower < valueOf middle ∧ valueOf middle < valueOf upper := by
    rw [← two_pow_mantissaBits] at short
    obtain ⟨middle, represented, same⟩ := exists_isRepresented short least low
    rw [← same] at above below
    exact ⟨middle, represented, above, below⟩
  obtain ⟨significand, power, same', even', short', least', low', full'⟩ :=
    represented.exists_magnitude wide even nonneg
  obtain ⟨mantissa, exponent, same, even, short, least, low, full⟩ :=
    represented'.exists_magnitude wide evenUpper (nonneg.trans less.le)
  rw [same', same] at found less ⊢
  have some : 1 ≤ mantissa := by
    rcases Nat.eq_zero_or_pos mantissa with rfl | positive
    · rw [Nat.cast_zero, zero_mul] at less
      exact absurd less (not_lt.mpr (by positivity))
    · exact positive
  have pred : ((mantissa - 1 : Nat) : ℚ) * 2 ^ exponent < mantissa * 2 ^ exponent :=
    mul_lt_mul_of_pos_right (by exact_mod_cast Nat.sub_lt some one_pos) (by positivity)
  rcases le_or_gt exponent power with above | below
  · exact found _ _ (by omega) least low (lt_pred_of_le even even' above less) pred
  · have long := full.resolve_right (by omega)
    rcases Nat.lt_or_ge (2 ^ format.mantissaBitsWithoutImplicit) mantissa with more | equal
    · exact found _ _ (by omega) least low (lt_of_exponent_lt short' (by omega) below) pred
    -- the least number with all bits in use comes after one of the exponent before
    · obtain rfl := Nat.le_antisymm equal long
      generalize shown : 2 ^ format.mantissaBitsWithoutImplicit = bits at *
      have moved : ((bits : Nat) : ℚ) * 2 ^ exponent = (2 * bits : Nat) * 2 ^ (exponent - 1) := by
        have place := zpow_add_one₀ (two_ne_zero (α := ℚ)) (exponent - 1)
        rw [Int.sub_add_cancel] at place
        rw [place]
        push_cast
        ring
      refine found (2 * bits - 1) (exponent - 1) (by omega) (by omega) (by omega) ?_ ?_
      · rcases Int.lt_or_le power (exponent - 1) with far | near
        · exact lt_of_exponent_lt short' (by omega) far
        · rw [moved] at less
          exact lt_pred_of_le (even_two_mul bits) even' near less
      · rw [moved]
        exact mul_lt_mul_of_pos_right (by exact_mod_cast (by omega : 2 * bits - 1 < 2 * bits))
          (by positivity)

theorem HasEvenMantissa.neg (even : HasEvenMantissa fields) : HasEvenMantissa fields.neg := by
  cases fields with
  | notANumber | infinity | zero => trivial
  | finite => exact even

theorem exists_between (wide : format.minExponent ≤ highestExponent format)
    (represented : IsRepresented format lower) (represented' : IsRepresented format upper)
    (even : HasEvenMantissa lower) (even' : HasEvenMantissa upper)
    (less : valueOf lower < valueOf upper) :
    ∃ middle, IsRepresented format middle ∧
      valueOf lower < valueOf middle ∧ valueOf middle < valueOf upper := by
  have zero : valueOf (.zero .positive) = 0 := rfl
  rcases le_or_gt 0 (valueOf lower) with nonneg | negative
  · exact exists_between_of_nonneg wide represented represented' even even' nonneg less
  · rcases lt_or_ge 0 (valueOf upper) with positive | nonpos
    · exact ⟨.zero .positive, .zero, zero.symm ▸ negative, zero.symm ▸ positive⟩
    -- both below zero: the same with the other sign
    · obtain ⟨middle, isRepresented, above, below⟩ := exists_between_of_nonneg wide
        represented'.neg represented.neg even'.neg even.neg
        (by rw [valueOf_neg]; linarith) (by rw [valueOf_neg, valueOf_neg]; linarith)
      rw [valueOf_neg] at above below
      exact ⟨middle.neg, isRepresented.neg, by rw [valueOf_neg]; linarith,
        by rw [valueOf_neg]; linarith⟩

end Neighbours

/-! ## Rounding keeps the order -/

theorem IsNearest.le_of_le (wide : format.minExponent ≤ highestExponent format)
    (nearest : IsNearest format q fields) (nearest' : IsNearest format q' other) (le : q ≤ q') :
    valueOf fields ≤ valueOf other := by
  by_contra! greater
  have close := nearest.closest other nearest'.represented
  have close' := nearest'.closest fields nearest.represented
  -- what is rounded up is not below the middle, and what is rounded down not above it
  have above : (valueOf other + valueOf fields) / 2 ≤ q := by
    rcases le_or_gt (valueOf fields) q with most | least
    · linarith
    · rw [abs_of_pos (by linarith)] at close
      rcases le_or_gt (valueOf other) q with most | least
      · rw [abs_of_nonpos (by linarith)] at close
        linarith
      · rw [abs_of_pos (by linarith)] at close
        linarith
  have below : q' ≤ (valueOf other + valueOf fields) / 2 := by
    rcases le_or_gt q' (valueOf other) with least | most
    · linarith
    · rw [abs_of_neg (by linarith)] at close'
      rcases le_or_gt q' (valueOf fields) with least | most
      · rw [abs_of_nonneg (by linarith)] at close'
        linarith
      · rw [abs_of_neg (by linarith)] at close'
        linarith
  obtain rfl : q = q' := by linarith
  have middle : q = (valueOf other + valueOf fields) / 2 := by linarith
  have tie : |valueOf other - q| = |valueOf fields - q| := by
    rw [abs_of_neg (by linarith), abs_of_pos (by linarith)]
    linarith
  obtain ⟨between, represented, more, less⟩ := exists_between wide nearest'.represented
    nearest.represented (nearest'.even fields nearest.represented tie.symm greater.ne')
    (nearest.even other nearest'.represented tie greater.ne) greater
  have nearer := nearest.closest between represented
  rw [abs_of_pos (by linarith), le_abs] at nearer
  rcases nearer with before | after <;> linarith

/-- Rounding stays below a bound if there is a number of the format below it, and what is rounded is
    nearer to that number. -/
theorem IsNearest.lt_of_lt_middle {bound : ℚ} (nearest : IsNearest format q fields)
    (represented : IsRepresented format other) (less : valueOf other < bound)
    (middle : q < (valueOf other + bound) / 2) : valueOf fields < bound := by
  by_contra! beyond
  have close := nearest.closest other represented
  rw [abs_of_pos (by linarith)] at close
  rcases abs_cases (valueOf other - q) with ⟨same, _⟩ | ⟨same, _⟩ <;> linarith

theorem IsNearest.abs_lt_of_lt_middle {bound : ℚ} (nearest : IsNearest format q fields)
    (represented : IsRepresented format other) (less : valueOf other < bound)
    (middle : |q| < (valueOf other + bound) / 2) : |valueOf fields| < bound := by
  obtain ⟨above, below⟩ := abs_lt.mp middle
  refine abs_lt.mpr ⟨?_, nearest.lt_of_lt_middle represented less below⟩
  have turned := nearest.neg.lt_of_lt_middle represented less (by linarith)
  rw [valueOf_neg] at turned
  linarith

/-! ## One result -/

theorem eq_of_compare_magnitudes {mantissa significand : Nat} {exponent power : Int}
    (same : (compare exponent power).then (compare mantissa significand) = .eq) :
    exponent = power ∧ mantissa = significand := by
  obtain ⟨exponents, mantissas⟩ := Ordering.then_eq_eq.mp same
  exact ⟨Int.compare_eq_eq.mp exponents, Nat.compare_eq_eq.mp mantissas⟩

theorem IsRepresented.eq_of_valueOf_eq (represented : IsRepresented format fields)
    (represented' : IsRepresented format other) (signed : Signed sign fields)
    (signed' : Signed sign other) (same : valueOf fields = valueOf other) : fields = other := by
  have compares := represented.compare_eq represented'
  rw [same, compare_eq_iff_eq.mpr rfl] at compares
  cases signed with
  | infinity => cases represented
  | zero =>
    cases signed' with
    | infinity => cases represented'
    | zero => rfl
    | finite => cases sign <;> cases compares
  | finite =>
    cases signed' with
    | infinity => cases represented'
    | zero => cases sign <;> cases compares
    | finite =>
      cases sign with
      | positive =>
        obtain ⟨rfl, rfl⟩ := eq_of_compare_magnitudes (Option.some.inj compares)
        rfl
      | negative =>
        have turned := Ordering.swap_eq_eq.mp (Option.some.inj compares)
        obtain ⟨rfl, rfl⟩ := eq_of_compare_magnitudes turned
        rfl

/-- Only zeros of both signs have the same value. -/
theorem IsRepresented.eq_of_valueOf_ne_zero (represented : IsRepresented format fields)
    (represented' : IsRepresented format other) (same : valueOf fields = valueOf other)
    (some : valueOf fields ≠ 0) : fields = other := by
  cases represented with
  | zero => exact absurd rfl some
  | @finite sign mantissa exponent positive short least low full =>
    have represented : IsRepresented format (.finite sign mantissa exponent positive) :=
      .finite short least low full
    cases represented' with
    | zero => exact absurd same some
    | @finite sign' significand power positive' short' least' low' full' =>
      obtain rfl : sign = sign' := by
        cases sign with
        | positive =>
          cases sign' with
          | positive => rfl
          | negative =>
            exact absurd (same ▸ valueOf_positive_pos) valueOf_negative_neg.not_gt
        | negative =>
          cases sign' with
          | positive =>
            exact absurd (same ▸ valueOf_negative_neg) valueOf_positive_pos.not_gt
          | negative => rfl
      exact represented.eq_of_valueOf_eq (.finite short' least' low' full') .finite .finite same

/-- A number of the format is the nearest one to itself. -/
theorem IsRepresented.isNearest (represented : IsRepresented format fields) :
    IsNearest format (valueOf fields) fields := by
  refine ⟨represented, fun other _ => ?_, fun other _ tie differs => absurd ?_ differs⟩
  · rw [sub_self, abs_zero]
    exact abs_nonneg _
  · rw [sub_self, abs_zero] at tie
    exact sub_eq_zero.mp (abs_eq_zero.mp tie)

theorem RoundsTo.isNearest (rounds : RoundsTo format sign q fields)
    (finite : fields.isFinite = true) : IsNearest format q fields := by
  cases rounds with
  | overflow => cases finite
  | nearest _ _ nearest => exact nearest

/-- Correct rounding has one result. -/
theorem RoundsTo.unique (wide : format.minExponent ≤ highestExponent format)
    (rounds : RoundsTo format sign q fields) (rounds' : RoundsTo format sign q other) :
    fields = other := by
  cases rounds with
  | overflow beyond =>
    cases rounds' with
    | overflow => rfl
    | nearest within => exact absurd within (not_lt.mpr beyond)
  | nearest within signed nearest =>
    cases rounds' with
    | overflow beyond => exact absurd within (not_lt.mpr beyond)
    | nearest _ signed' nearest' =>
      exact nearest.represented.eq_of_valueOf_eq nearest'.represented signed signed'
        (le_antisymm (nearest.le_of_le wide nearest' le_rfl)
          (nearest'.le_of_le wide nearest le_rfl))

end Troupe.Number
