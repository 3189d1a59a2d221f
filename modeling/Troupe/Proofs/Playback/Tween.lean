import Troupe.Playback.Tween
import Troupe.Proofs.Geometry.Sound

/-! # Every frame of a tween

A fraction of the way is one, or it is a quotient of two times that is below one. Times have no
minus sign, so such a fraction is not below zero, and what it makes of the two ends of a tween
is a number. The last frame is the end of the tween itself.
-/

namespace Troupe.Playback

open Troupe.Geometry
open Troupe.Number
open Float.Model (UnpackedFloat)

theorem Duration.unsigned_toSingle (duration : Nat) :
    Unsigned (fields32 (toSingle duration)) :=
  ((unsigned_ofNat _).add ((unsigned_ofNat _).div (unsigned_ofNat _)).packed).packed

namespace Tween

/-- Two poses that an actor may take, of which the first may have any heading. -/
structure IsSound (tween : Tween) : Prop where
  start : tween.start.position.IsSound
  finish : tween.finish.IsSound

variable {tween later : Tween} {now : Nat} {bounds : Bounds} {pose : Pose} {progress : Progress}

theorem fraction_cases (tween : Tween) (elapsed : Nat) :
    1 ≤ tween.fraction elapsed ∨ (0 ≤ tween.fraction elapsed ∧ tween.fraction elapsed < 1) := by
  have one : (1 : Float32) ≤ 1 := by decide
  have number : (1 : Float32).isNaN = false := by decide
  unfold fraction
  split
  case isTrue => exact .inl one
  case isFalse =>
    simp only [smaller, number, Bool.false_eq_true, if_false]
    by_cases below : Duration.toSingle elapsed / Duration.toSingle tween.duration < 1
    · rw [if_pos below]
      refine .inr ⟨?_, below⟩
      have unsigned : Unsigned
          (fields32 (Duration.toSingle elapsed / Duration.toSingle tween.duration)) :=
        ((Duration.unsigned_toSingle _).div (Duration.unsigned_toSingle _)).packed
      rw [nonneg_iff]
      rw [lt_iff_compare] at below
      generalize fields32 (Duration.toSingle elapsed / Duration.toSingle tween.duration) = fields
        at unsigned below ⊢
      cases unsigned with
      | notANumber => cases below
      | signed signed => exact .signed signed
    · rw [if_neg below]
      exact .inl one

theorem sound_poseAt (sound : tween.IsSound) (roomy : bounds.max.IsFinite) (elapsed : Nat) :
    (tween.poseAt (tween.fraction elapsed) bounds).position.IsSound := by
  refine Bounds.sound_clamp roomy ?_
  by_cases covered : 1 ≤ tween.fraction elapsed
  · rw [if_pos covered]
    exact sound.finish.position.isNumber
  · obtain ⟨nonneg, below⟩ := (fraction_cases tween elapsed).resolve_left covered
    rw [if_neg covered]
    exact Point.isNumber_between sound.start sound.finish.position nonneg below

/-- A frame shows a position inside the bounds, and the last one a heading that is finite. -/
theorem IsSound.step (sound : tween.IsSound) (roomy : bounds.max.IsFinite)
    (stepped : tween.step now bounds = (later, pose, progress)) :
    later.IsSound ∧ pose.position.IsSound ∧
      (progress = .done → pose.rotation.isFinite = true) := by
  obtain ⟨rfl, rfl, rfl⟩ := by simpa [Tween.step] using stepped
  refine ⟨⟨sound.start, sound.finish⟩, sound_poseAt sound roomy _, ?_⟩
  intro arrives
  by_cases covered : 1 ≤ tween.fraction (now - tween.startedAt.getD now)
  · rw [poseAt, if_pos covered]
    exact sound.finish.rotation
  · simp [covered] at arrives

end Tween

end Troupe.Playback
