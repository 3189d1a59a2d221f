import Troupe.Proofs.Geometry.Bounds
import Troupe.Proofs.Number.Finite

/-! # Positions that arithmetic cannot spoil

Moving a position into the rectangle lets `NaN` through, so what is moved there must be a number
already. The steps that lead to a position are products and sums of finite numbers, or of
numbers without a minus sign, and those are numbers even where they overflow. What comes out of
a rectangle with finite limits is finite again.

* `IsCoordinate` — finite and not below zero.
* `Point.IsNumber`, `Point.IsSound`, `Pose.IsSound` — points and poses by their coordinates.
* `Bounds.sound_clamp`, `Bounds.contains_of_keeps` — what the rectangle makes of a number.
* `Pose.sound_advanced`, `Point.sound_between` — a walk, and a place on the way.
-/

namespace Troupe.Number

def IsCoordinate (x : Float32) : Prop :=
  0 ≤ x ∧ x.isFinite = true

theorem isCoordinate_zero : IsCoordinate 0 := by
  constructor <;> decide

theorem nonneg_larger_zero (x : Float32) : 0 ≤ larger x 0 := by
  rw [larger_zero]
  split
  case isTrue positive => exact le_of_lt positive
  case isFalse => exact isCoordinate_zero.1

theorem isCoordinate_larger_zero {x : Float32} (finite : x.isFinite = true) :
    IsCoordinate (larger x 0) := by
  rw [larger_zero]
  split
  case isTrue positive => exact ⟨le_of_lt positive, finite⟩
  case isFalse => exact isCoordinate_zero

theorem isCoordinate_clamp {high x : Float32} (limit : IsCoordinate high)
    (number : x.isNaN = false) : IsCoordinate (clamp 0 high x) := by
  unfold clamp
  by_cases below : x < 0
  · rw [if_pos below]
    exact isCoordinate_zero
  · by_cases above : high < x
    · rw [if_neg below, if_pos above]
      exact limit
    · rw [if_neg below, if_neg above]
      have nonneg := le_of_not_lt (isNaN_of_le isCoordinate_zero.1).1 number below
      exact ⟨nonneg, isFinite_of_le nonneg
        (le_of_not_lt number (isNaN_of_isFinite limit.2) above) limit.2⟩

end Troupe.Number

namespace Troupe.Geometry

open Troupe.Number

/-! ## Points and poses -/

def Point.IsNumber (point : Point) : Prop :=
  point.x.isNaN = false ∧ point.y.isNaN = false

def Point.IsFinite (point : Point) : Prop :=
  point.x.isFinite = true ∧ point.y.isFinite = true

instance (point : Point) : Decidable point.IsFinite :=
  inferInstanceAs (Decidable (_ ∧ _))

/-- Finite coordinates, neither below zero. -/
def Point.IsSound (point : Point) : Prop :=
  IsCoordinate point.x ∧ IsCoordinate point.y

/-- A pose that a walk, a turn and a hand-off can start from. -/
structure Pose.IsSound (pose : Pose) : Prop where
  position : pose.position.IsSound
  rotation : pose.rotation.isFinite = true

theorem Point.IsFinite.isNumber {point : Point} (finite : point.IsFinite) : point.IsNumber :=
  ⟨isNaN_of_isFinite finite.1, isNaN_of_isFinite finite.2⟩

theorem Point.IsSound.isFinite {point : Point} (sound : point.IsSound) : point.IsFinite :=
  ⟨sound.1.2, sound.2.2⟩

theorem Point.IsSound.isNumber {point : Point} (sound : point.IsSound) : point.IsNumber :=
  sound.isFinite.isNumber

namespace Bounds

variable {bounds : Bounds} {point : Point}

theorem sound_clamp (roomy : bounds.max.IsFinite) (number : point.IsNumber) :
    (bounds.clamp point).IsSound :=
  ⟨isCoordinate_clamp (isCoordinate_larger_zero roomy.1) number.1,
    isCoordinate_clamp (isCoordinate_larger_zero roomy.2) number.2⟩

theorem Keeps.sound (kept : bounds.Keeps point) (roomy : bounds.max.IsFinite)
    (number : point.IsNumber) : point.IsSound := by
  rw [← show bounds.clamp point = point from kept]
  exact sound_clamp roomy number

/-- A number that the bounds of a stage keep is inside them. -/
theorem contains_of_keeps {width height size : Float32}
    (kept : (ofStage width height size).Keeps point) (number : point.IsNumber) :
    (ofStage width height size).contains point = true := by
  have zero : (0 : Float32).isNaN = false := (isNaN_of_le isCoordinate_zero.1).1
  have wide : (ofStage width height size).max.x.isNaN = false :=
    (isNaN_of_le (nonneg_larger_zero _)).2
  have high : (ofStage width height size).max.y.isNaN = false :=
    (isNaN_of_le (nonneg_larger_zero _)).2
  obtain ⟨⟨left, right⟩, top, bottom⟩ := keeps_ofStage_iff.mp kept
  simp [contains, le_of_not_lt zero number.1 left, le_of_not_lt zero number.2 top,
    le_of_not_lt number.1 wide right, le_of_not_lt number.2 high bottom]

end Bounds

/-! ## Ways -/

theorem Pose.isFinite_heading [Trigonometry] (bounded : Trigonometry.IsBounded) {pose : Pose}
    (finite : pose.rotation.isFinite = true) : pose.heading.IsFinite :=
  (bounded.isFinite (isFinite_radians finite)).symm

/-- The sum may be infinite, but the position before the walk is not. -/
theorem Pose.sound_advanced [Trigonometry] (bounded : Trigonometry.IsBounded) {pose : Pose}
    {steps : Float32} {bounds : Bounds} (sound : pose.IsSound) (finite : steps.isFinite = true)
    (roomy : bounds.max.IsFinite) : (pose.advanced steps bounds).IsSound := by
  have heading := Pose.isFinite_heading bounded sound.rotation
  exact Bounds.sound_clamp roomy
    ⟨isNaN_add sound.position.1.2 (isNaN_mul heading.1 finite),
      isNaN_add sound.position.2.2 (isNaN_mul heading.2 finite)⟩

/-- Both parts of the weighted sum are not below zero, so it is a number. -/
theorem Point.isNumber_between {start finish : Point} {fraction : Float32}
    (starts : start.IsSound) (ends : finish.IsSound) (nonneg : 0 ≤ fraction)
    (below : fraction < 1) : (start.between finish fraction).IsNumber := by
  have rest := one_sub_of_lt nonneg below
  have finite : fraction.isFinite = true := isFinite_of_le nonneg (le_of_lt below) (by decide)
  have weighted {x y : Float32} (first : IsCoordinate x) (second : IsCoordinate y) :
      (x * (1 - fraction) + y * fraction).isNaN = false := by
    have sum := nonneg_add (nonneg_mul first.1 rest.1 first.2 rest.2)
      (nonneg_mul second.1 nonneg second.2 finite)
    exact (isNaN_of_le sum).2
  exact ⟨weighted starts.1 ends.1, weighted starts.2 ends.2⟩

end Troupe.Geometry
