import Troupe.Proofs.Number.Order
import Troupe.Geometry.Pose

/-! # Positions that the bounds keep

A position is kept when moving it into the rectangle leaves it as it is. Whatever is moved
into the rectangle is kept from then on, `NaN` included, so a walk, a tween and a resize
all hand on positions of this kind.
-/

namespace Troupe.Number

theorem larger_zero (x : Float32) : larger x 0 = if 0 < x then x else 0 := by
  have zeroNumber : (0 : Float32).isNaN = false := by decide
  simp only [larger, zeroNumber, Bool.false_eq_true, if_false]

theorem larger_larger_zero (x : Float32) : larger (larger x 0) 0 = larger x 0 := by
  by_cases positive : 0 < x
  · simp only [larger_zero, positive, if_true]
  · simp only [larger_zero, positive, lt_irrefl, if_false]

theorem not_larger_zero_lt (x : Float32) : ¬ larger x 0 < 0 := by
  rw [larger_zero]
  split
  case isTrue positive => exact lt_asymm positive
  case isFalse => exact lt_irrefl 0

theorem clamp_clamp {low high : Float32} (ordered : ¬ high < low) (x : Float32) :
    clamp low high (clamp low high x) = clamp low high x := by
  simp only [clamp]
  -- `NaN` is neither below nor above, and stays as it is.
  by_cases below : x < low
  · simp only [below, if_true, lt_irrefl, if_false, ite_eq_right_iff]
    intro lowAbove
    exact absurd lowAbove ordered
  · by_cases above : high < x
    · simp only [below, above, ordered, if_true, if_false, ite_self]
    · simp only [below, above, if_false]

theorem clamp_eq_self_iff {low high x : Float32} :
    clamp low high x = x ↔ ¬ x < low ∧ ¬ high < x := by
  unfold clamp
  constructor
  · intro kept
    by_cases below : x < low
    · rw [if_pos below] at kept
      rw [kept] at below
      exact absurd below (lt_irrefl x)
    · refine ⟨below, fun above => ?_⟩
      rw [if_neg below, if_pos above] at kept
      rw [kept] at above
      exact absurd above (lt_irrefl x)
  · intro ⟨below, above⟩
    rw [if_neg below, if_neg above]

end Troupe.Number

namespace Troupe.Geometry

/-- Whether a position stays where it is when it is moved into the rectangle. -/
def Bounds.Keeps (bounds : Bounds) (position : Point) : Prop :=
  bounds.clamp position = position

theorem Bounds.keeps_clamp (bounds : Bounds) (position : Point) :
    bounds.Keeps (bounds.clamp position) := by
  simp only [Keeps, clamp, Number.clamp_clamp (Number.not_larger_zero_lt _)]

theorem Bounds.keeps_ofStage_iff {width height size : Float32} {position : Point} :
    (ofStage width height size).Keeps position ↔
      (¬ position.x < 0 ∧ ¬ (ofStage width height size).max.x < position.x) ∧
        (¬ position.y < 0 ∧ ¬ (ofStage width height size).max.y < position.y) := by
  rw [← Number.clamp_eq_self_iff, ← Number.clamp_eq_self_iff]
  -- The limits of a stage are not negative, so they are used as they are.
  obtain ⟨x, y⟩ := position
  simp only [Keeps, clamp, ofStage, Number.larger_larger_zero, Point.mk.injEq]

theorem Pose.movedTo_clamp {bounds : Bounds} {pose : Pose} (kept : bounds.Keeps pose.position) :
    pose.movedTo (bounds.clamp pose.position) = pose := by
  rw [show bounds.clamp pose.position = pose.position from kept]
  rfl

end Troupe.Geometry
