import Mathlib
import Troupe.Proofs.Geometry.Sound
import Troupe.Proofs.Number.Double

/-! # One rectangle after another

A position that is moved into one rectangle and then into another one usually ends up where the
second one alone would have put it. It does not if the first one has moved it farther in than the
second one asks for.

* `clamp_clamp_eq_iff` — one coordinate.
* `Bounds.clamp_clamp_eq_iff` — positions.
-/

namespace Troupe.Number

variable {x limit limit' : Float32}

theorem isNaN_of_lt {y : Float32} (less : x < y) : x.isNaN = false ∧ y.isNaN = false :=
  isNaN_of_le (le_of_lt less)

theorem lt_of_lt_of_lt {y z : Float32} (less : x < y) (less' : y < z) : x < z := by
  obtain ⟨number, number'⟩ := isNaN_of_lt less
  have number'' := (isNaN_of_lt less').2
  rw [lt_iff_rank number number'] at less
  rw [lt_iff_rank number' number''] at less'
  rw [lt_iff_rank number number'']
  exact less.trans less'

theorem isFinite_of_lt {y : Float32} (nonneg : ¬ x < 0) (less : x < y) : x.isFinite = true := by
  have zero : fields32 0 = .zero .positive := rfl
  rw [lt_iff_compare, zero] at nonneg
  rw [lt_iff_compare] at less
  change (fields32 x).isFinite = true
  generalize fields32 x = left at *
  cases left with
  | notANumber => cases less
  | zero | finite => rfl
  | infinity sign =>
    cases sign with
    | negative => exact absurd rfl nonneg
    | positive =>
      generalize fields32 y = right at *
      rcases right with other | _ | _ | _ <;> first | cases other <;> cases less | cases less

theorem larger_zero_eq_zero (none : value (larger limit 0) = 0)
    (finite : (larger limit 0).isFinite = true) : larger limit 0 = 0 := by
  have zero : value 0 = 0 := rfl
  rw [larger_zero] at finite none ⊢
  by_cases positive : 0 < limit
  · rw [if_pos positive] at finite none
    rw [lt_iff_value (by decide) finite, none, zero] at positive
    exact absurd positive (by norm_num)
  · rw [if_neg positive]

/-- Limits below zero and `NaN` count as zero, so two of them are told apart by their order. -/
theorem larger_zero_eq_of_not_lt (below : ¬ larger limit 0 < larger limit' 0)
    (above : ¬ larger limit' 0 < larger limit 0) (less : larger limit' 0 < x) :
    larger limit 0 = larger limit' 0 := by
  have number := (isNaN_of_le (nonneg_larger_zero limit)).2
  have number' := (isNaN_of_le (nonneg_larger_zero limit')).2
  have finite' := isFinite_of_lt (not_larger_zero_lt limit') less
  have finite := isFinite_of_le (nonneg_larger_zero limit) (le_of_not_lt number number' above)
    finite'
  have same : value (larger limit 0) = value (larger limit' 0) :=
    le_antisymm (not_lt.mp (mt (lt_iff_value finite' finite).mpr above))
      (not_lt.mp (mt (lt_iff_value finite finite').mpr below))
  by_cases none : value (larger limit 0) = 0
  · rw [larger_zero_eq_zero none finite, larger_zero_eq_zero (same ▸ none) finite']
  · exact eq_of_fields32 finite (IsRepresented.eq_of_valueOf_ne_zero
      (canonical_iff_isRepresented.mp (canonical_of_isFinite finite))
      (canonical_iff_isRepresented.mp (canonical_of_isFinite finite')) same none)

theorem clamp_clamp_eq_iff :
    clamp 0 (larger limit 0) (clamp 0 (larger limit' 0) x) = clamp 0 (larger limit 0) x ↔
      ¬ (larger limit' 0 < x ∧ larger limit' 0 < larger limit 0) := by
  have nonneg := not_larger_zero_lt limit
  have nonneg' := not_larger_zero_lt limit'
  have same := @larger_zero_eq_of_not_lt x limit limit'
  generalize larger limit 0 = high at *
  generalize larger limit' 0 = high' at *
  unfold clamp
  by_cases below : x < 0
  · have notAbove : ¬ high' < x := fun above => nonneg' (lt_of_lt_of_lt above below)
    simp [below, notAbove, nonneg, lt_irrefl]
  · by_cases above : high' < x
    · rcases Decidable.em (high < high') with less | notLess
      · simp [below, above, nonneg', less, lt_of_lt_of_lt less above, lt_asymm less]
      · by_cases more : high' < high
        · have differs : high' ≠ high := fun same => lt_irrefl _ (same ▸ more)
          have differs' : high' ≠ x := fun same => lt_irrefl _ (same ▸ above)
          simp only [below, above, nonneg', notLess, more, if_true, if_false, and_self, not_true,
            iff_false]
          split
          case isTrue => exact differs
          case isFalse => exact differs'
        · have same := same notLess more above
          simp [below, above, nonneg', same, lt_irrefl]
    · simp [below, above]

end Troupe.Number

namespace Troupe.Geometry.Bounds

open Troupe.Number

variable {width height size width' height' size' : Float32} {position : Point}

/-- Nothing is lost in a rectangle before another one, unless on one axis it ends before both the
    position and the other rectangle do. -/
theorem clamp_clamp_eq_iff :
    let first := Bounds.ofStage width height size
    let second := Bounds.ofStage width' height' size'
    second.clamp (first.clamp position) = second.clamp position ↔
      ¬ (first.max.x < position.x ∧ first.max.x < second.max.x) ∧
        ¬ (first.max.y < position.y ∧ first.max.y < second.max.y) := by
  simp only [clamp, ofStage, larger_larger_zero, Point.mk.injEq, Number.clamp_clamp_eq_iff]

end Troupe.Geometry.Bounds
