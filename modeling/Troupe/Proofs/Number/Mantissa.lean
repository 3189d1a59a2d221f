import Mathlib
import Troupe.Proofs.Number.Value

/-! # Rounding a mantissa

What is left of a mantissa has two more bits. They tell on which side of the middle of two mantissas
the exact number lies, so that rounding goes to the nearest one, and from the middle to the even
one.

* `IsNearestEven` — the nearest whole number.
* `Holds` — the numbers that a mantissa with two more bits stands for.
* `Holds.isNearestEven` — rounding such a mantissa.
* `Holds.shiftRight`, `holds_accuracyOfFraction` — where such mantissas come from.
-/

namespace Troupe.Number

open Float.Model (UnpackedFloat Format)
open Float.Model.UnpackedFloat

/-! ## Whole numbers -/

/-- The nearest whole number, and the even one if there are two. -/
structure IsNearestEven (rounded : Nat) (x : ℚ) : Prop where
  close : |(rounded : ℚ) - x| ≤ 1 / 2
  even : |(rounded : ℚ) - x| = 1 / 2 → Even rounded

variable {rounded : Nat} {x : ℚ} {extended : ExtendedMantissa}

theorem IsNearestEven.of_lt (less : |(rounded : ℚ) - x| < 1 / 2) : IsNearestEven rounded x :=
  ⟨less.le, fun middle => absurd middle less.ne⟩

theorem IsNearestEven.close_or (nearest : IsNearestEven rounded x) (other : ℤ)
    (differs : other ≠ rounded) :
    |(rounded : ℚ) - x| < |other - x| ∨
      |(rounded : ℚ) - x| = |other - x| ∧ Even rounded := by
  have apart : (1 : ℚ) ≤ |(other : ℚ) - rounded| := by
    exact_mod_cast Int.one_le_abs (sub_ne_zero.mpr differs)
  have through : |(other : ℚ) - rounded| ≤ |other - x| + |(rounded : ℚ) - x| := by
    rw [abs_sub_comm (rounded : ℚ) x]
    exact abs_sub_le _ x _
  rcases lt_or_eq_of_le nearest.close with less | half
  · left
    linarith
  · rcases lt_or_eq_of_le (by linarith : |(rounded : ℚ) - x| ≤ |other - x|) with less | same
    · exact .inl less
    · exact .inr ⟨same, nearest.even half⟩

theorem IsNearestEven.le_abs (nearest : IsNearestEven rounded x) (other : ℤ) :
    |(rounded : ℚ) - x| ≤ |other - x| := by
  by_cases same : other = rounded
  · simp [same]
  · exact (nearest.close_or other same).elim (fun less => less.le) fun tie => tie.1.le

theorem IsNearestEven.le_of_le {bound : Nat} (nearest : IsNearestEven rounded x) (le : x ≤ bound) :
    rounded ≤ bound := by
  have close := (abs_le.mp nearest.close).2
  have below : (rounded : ℚ) < bound + 1 := by linarith
  exact Nat.lt_succ_iff.mp (by exact_mod_cast below)

theorem IsNearestEven.le_of_ge {bound : Nat} (nearest : IsNearestEven rounded x) (le : bound ≤ x) :
    bound ≤ rounded := by
  have close := (abs_le.mp nearest.close).1
  have above : (bound : ℚ) < rounded + 1 := by linarith
  exact Nat.lt_succ_iff.mp (by exact_mod_cast above)

/-- The middle between an odd number and the next one is rounded up. -/
theorem IsNearestEven.lt_iff {bound : Nat} (nearest : IsNearestEven rounded x)
    (even : Even bound) : rounded < bound ↔ x < bound - 1 / 2 := by
  have close := abs_le.mp nearest.close
  constructor
  · intro less
    have below : (rounded : ℚ) + 1 ≤ bound := by exact_mod_cast less
    by_contra above
    have middle : x = rounded + 1 / 2 := by linarith
    have odd : Even rounded := nearest.even (by rw [middle]; norm_num)
    have next : bound = rounded + 1 := by
      have same : (bound : ℚ) = (rounded + 1 : Nat) := by push_cast; linarith
      exact_mod_cast same
    exact (Nat.even_add_one.mp (next ▸ even)) odd
  · intro less
    have below : (rounded : ℚ) < bound := by linarith
    exact_mod_cast below

/-! ## Mantissas with two more bits -/

/-- Whether a number is what a mantissa and its two residual bits say: the first one stands for a
    half, and the second one tells whether there is anything beyond. -/
def Holds (extended : ExtendedMantissa) (x : ℚ) : Prop :=
  let least : ℚ := extended.mantissa + if extended.roundBit then 1 / 2 else 0
  if extended.stickyBit then least < x ∧ x < least + 1 / 2 else x = least

theorem Holds.shiftRightOne (holds : Holds extended x) :
    Holds extended.shiftRightOne (x / 2) := by
  obtain ⟨mantissa, round, sticky⟩ := extended
  have halves : (mantissa : ℚ) = 2 * (mantissa / 2 : Nat) + (mantissa % 2 : Nat) := by
    exact_mod_cast (Nat.div_add_mod mantissa 2).symm
  rcases Nat.mod_two_eq_zero_or_one mantissa with even | odd
  · rw [even] at halves
    cases round <;> cases sticky <;>
      simp [Holds, ExtendedMantissa.shiftRightOne, even] at holds ⊢
    all_goals first | linarith | constructor <;> linarith
  · rw [odd] at halves
    cases round <;> cases sticky <;>
      simp [Holds, ExtendedMantissa.shiftRightOne, odd] at holds ⊢
    all_goals first | linarith | constructor <;> linarith

theorem Holds.shiftRight (holds : Holds extended x) (count : Nat) :
    Holds (extended >>> count) (x / 2 ^ count) := by
  induction count with
  | zero => simpa [HShiftRight.hShiftRight, Nat.repeat] using holds
  | succ count ih =>
    change Holds (extended >>> count).shiftRightOne _
    rw [pow_succ, ← div_div]
    exact ih.shiftRightOne

/-- Rounding goes to the nearest mantissa, and from the middle to the even one. -/
theorem Holds.isNearestEven (holds : Holds extended x) :
    IsNearestEven extended.roundedMantissa x := by
  obtain ⟨mantissa, round, sticky⟩ := extended
  cases round <;> cases sticky <;>
    simp [Holds, ExtendedMantissa.roundedMantissa, ExtendedMantissa.accuracy,
      Accuracy.roundToNearestEven] at holds ⊢
  · exact ⟨by simp [holds], by simp [holds]⟩
  · refine .of_lt (abs_lt.mpr ?_)
    constructor <;> linarith
  · have even : Even (mantissa + mantissa % 2) := by
      rw [Nat.even_iff]
      omega
    refine ⟨?_, fun _ => even⟩
    subst holds
    rcases Nat.mod_two_eq_zero_or_one mantissa with zero | one
    · rw [zero, abs_le]
      constructor <;> norm_num
    · rw [one, abs_le]
      constructor <;> norm_num
  · refine .of_lt (abs_lt.mpr ?_)
    push_cast
    constructor <;> linarith

theorem Holds.le_of_accuracy {mantissa : Nat} {accuracy : Accuracy}
    (holds : Holds (.ofMantissaAndAccuracy mantissa accuracy) x) : (mantissa : ℚ) ≤ x := by
  cases accuracy with
  | exact => simpa [Holds, ExtendedMantissa.ofMantissaAndAccuracy] using holds.ge
  | inexact order =>
    cases order <;> simp [Holds, ExtendedMantissa.ofMantissaAndAccuracy] at holds <;> linarith

theorem Holds.lt_add_one {mantissa : Nat} {accuracy : Accuracy}
    (holds : Holds (.ofMantissaAndAccuracy mantissa accuracy) x) : x < mantissa + 1 := by
  cases accuracy with
  | exact => simp [Holds, ExtendedMantissa.ofMantissaAndAccuracy] at holds; linarith
  | inexact order =>
    cases order <;> simp [Holds, ExtendedMantissa.ofMantissaAndAccuracy] at holds <;> linarith

theorem holds_exact (mantissa : Nat) :
    Holds (.ofMantissaAndAccuracy mantissa .exact) mantissa := by
  simp [Holds, ExtendedMantissa.ofMantissaAndAccuracy]

theorem exists_holds (mantissa : Nat) (accuracy : Accuracy) :
    ∃ x : ℚ, Holds (.ofMantissaAndAccuracy mantissa accuracy) x ∧ x < mantissa + 1 := by
  cases accuracy with
  | exact => exact ⟨mantissa, holds_exact mantissa, by linarith⟩
  | inexact order =>
    cases order with
    | lt =>
      refine ⟨mantissa + 1 / 4, ?_, by linarith⟩
      norm_num [Holds, ExtendedMantissa.ofMantissaAndAccuracy]
    | eq =>
      refine ⟨mantissa + 1 / 2, ?_, by linarith⟩
      norm_num [Holds, ExtendedMantissa.ofMantissaAndAccuracy]
    | gt =>
      refine ⟨mantissa + 3 / 4, ?_, by linarith⟩
      norm_num [Holds, ExtendedMantissa.ofMantissaAndAccuracy]
      linarith

/-- A quotient with the rest that division leaves. -/
theorem holds_accuracyOfFraction (dividend : Nat) {divisor : Nat} (positive : 0 < divisor) :
    Holds (.ofMantissaAndAccuracy (dividend / divisor)
      (accuracyOfFraction (dividend % divisor) divisor)) (dividend / divisor) := by
  have parts : (dividend : ℚ) =
      divisor * (dividend / divisor : Nat) + (dividend % divisor : Nat) := by
    exact_mod_cast (Nat.div_add_mod dividend divisor).symm
  have scale : (0 : ℚ) < divisor := by exact_mod_cast positive
  have quotient : (dividend : ℚ) / divisor =
      (dividend / divisor : Nat) + (dividend % divisor : Nat) / divisor := by
    rw [parts]
    field_simp
  rw [quotient]
  unfold accuracyOfFraction
  split
  case isTrue none => simp [Holds, ExtendedMantissa.ofMantissaAndAccuracy, none]
  case isFalse some =>
    have rest : 0 < ((dividend % divisor : Nat) : ℚ) / divisor :=
      div_pos (by exact_mod_cast Nat.pos_of_ne_zero some) scale
    have part : ((dividend % divisor : Nat) : ℚ) / divisor < 1 :=
      (div_lt_one scale).mpr (by exact_mod_cast Nat.mod_lt dividend positive)
    rcases lt_trichotomy (2 * (dividend % divisor)) divisor with small | half | large
    · have small' : (2 : ℚ) * (dividend % divisor : Nat) < divisor := by exact_mod_cast small
      rw [Nat.compare_eq_lt.mpr small]
      simp only [Holds, ExtendedMantissa.ofMantissaAndAccuracy, if_true, Bool.false_eq_true,
        if_false]
      have less : ((dividend % divisor : Nat) : ℚ) / divisor < 1 / 2 :=
        (div_lt_iff₀ scale).mpr (by linarith)
      constructor <;> linarith
    · have half' : (2 : ℚ) * (dividend % divisor : Nat) = divisor := by exact_mod_cast half
      rw [Nat.compare_eq_eq.mpr half]
      simp only [Holds, ExtendedMantissa.ofMantissaAndAccuracy, if_true, Bool.false_eq_true,
        if_false]
      rw [← half']
      field_simp
    · have large' : (divisor : ℚ) < 2 * (dividend % divisor : Nat) := by exact_mod_cast large
      rw [Nat.compare_eq_gt.mpr large]
      simp only [Holds, ExtendedMantissa.ofMantissaAndAccuracy, if_true]
      have more : 1 / 2 < ((dividend % divisor : Nat) : ℚ) / divisor :=
        (lt_div_iff₀ scale).mpr (by linarith)
      constructor <;> linarith

end Troupe.Number
