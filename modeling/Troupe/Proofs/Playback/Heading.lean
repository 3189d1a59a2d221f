import Mathlib
import Troupe.Proofs.Number.Weighted
import Troupe.Proofs.Playback.Tween

/-! # Headings on the way

A heading on the way is a weighted sum of the headings at both ends. The weights and the products
are rounded, upwards too, so the sum of two headings near the end of the range comes close to what is
beyond it. It stays in the range for every fraction of the way, and so does every frame that a
tween shows, whenever it is stepped and whatever the bounds are by then.

* `IsHeaded`, `IsHeaded.step` — ends with finite headings, and one step.
* `frames` — the poses that are shown, step after step.
* `finite_headings` — all of them, and all fractions of the way.
-/

namespace Troupe.Playback.Tween

open Troupe.Geometry
open Troupe.Number

/-! ## One step -/

/-- Both ends have finite headings. -/
structure IsHeaded (tween : Tween) : Prop where
  start : tween.start.rotation.isFinite = true
  finish : tween.finish.rotation.isFinite = true

variable {tween later : Tween} {now : Nat} {bounds : Bounds} {pose : Pose} {progress : Progress}

theorem IsHeaded.poseAt (headed : tween.IsHeaded) (elapsed : Nat) (bounds : Bounds) :
    (tween.poseAt (tween.fraction elapsed) bounds).rotation.isFinite = true := by
  by_cases covered : 1 ≤ tween.fraction elapsed
  · rw [Tween.poseAt, if_pos covered]
    exact headed.finish
  · obtain ⟨nonneg, below⟩ := (fraction_cases tween elapsed).resolve_left covered
    rw [Tween.poseAt, if_neg covered]
    exact isFinite_weighted headed.start headed.finish nonneg below

theorem IsHeaded.step (headed : tween.IsHeaded)
    (stepped : tween.step now bounds = (later, pose, progress)) :
    later.IsHeaded ∧ pose.rotation.isFinite = true := by
  obtain ⟨rfl, rfl, rfl⟩ := by simpa [Tween.step] using stepped
  exact ⟨⟨headed.start, headed.finish⟩, headed.poseAt _ bounds⟩

/-! ## All steps -/

/-- The poses that are shown at some instants, each with the bounds in force by then. -/
def frames (tween : Tween) : List (Nat × Bounds) → List Pose
  | [] => []
  | (now, bounds) :: rest =>
    let (later, pose, _) := tween.step now bounds
    pose :: later.frames rest

theorem length_frames (tween : Tween) (steps : List (Nat × Bounds)) :
    (tween.frames steps).length = steps.length := by
  induction steps generalizing tween with
  | nil => rfl
  | cons step rest ih => exact congrArg Nat.succ (ih _)

/-- What one step keeps of a tween is what the next step needs. -/
theorem IsHeaded.frames (headed : tween.IsHeaded) (steps : List (Nat × Bounds)) :
    ∀ pose ∈ tween.frames steps, pose.rotation.isFinite = true := by
  induction steps generalizing tween with
  | nil => exact fun _ shown => nomatch shown
  | cons step rest ih =>
    obtain ⟨now, bounds⟩ := step
    intro pose shown
    obtain ⟨goesOn, finite⟩ := headed.step (rfl : tween.step now bounds = _)
    cases shown with
    | head => exact finite
    | tail _ after => exact ih goesOn pose after

/-- Every step shows a pose, and every pose that is shown has a finite heading. So has every
    fraction of the way, whether or not a step comes there. -/
theorem finite_headings (headed : tween.IsHeaded) :
    (∀ steps, (tween.frames steps).length = steps.length ∧
      ∀ pose ∈ tween.frames steps, pose.rotation.isFinite = true) ∧
    ∀ fraction : Float32, 0 ≤ fraction → fraction < 1 →
      (tween.start.rotation * (1 - fraction) +
        tween.finish.rotation * fraction).isFinite = true := by
  constructor
  · intro steps
    exact ⟨length_frames tween steps, headed.frames steps⟩
  · intro fraction nonneg below
    exact isFinite_weighted headed.start headed.finish nonneg below

/-- A walk with the largest heading there is at both ends. -/
def giddyWalk : Tween :=
  .new ⟨.origin, largest32⟩ ⟨⟨100, 0⟩, largest32⟩ 500000000

/-- Steps at the start, on the way, at an instant before the start, in narrower bounds, and late. -/
def giddySteps : List (Nat × Bounds) :=
  [(1000, ⟨⟨900, 450⟩⟩), (141101119, ⟨⟨900, 450⟩⟩), (0, ⟨⟨900, 450⟩⟩), (300001000, ⟨⟨50, 50⟩⟩),
    (900000000, ⟨⟨50, 50⟩⟩)]

/-- The sum of the rounded products is the largest number or the one before it. -/
theorem giddyWalk_finite_headings :
    giddyWalk.IsHeaded ∧
      (giddyWalk.frames giddySteps).map (·.rotation.toBits) =
        [0x7f7fffff, 0x7f7ffffe, 0x7f7fffff, 0x7f7ffffe, 0x7f7fffff] ∧
      (∀ pose ∈ giddyWalk.frames giddySteps, pose.rotation.isFinite = true) ∧
      (0 : Float32) ≤ 0.282 ∧ (0.282 : Float32) < 1 ∧
      (largest32 * (1 - 0.282) + largest32 * 0.282).isFinite = true := by
  have headed : giddyWalk.IsHeaded := ⟨by decide, by decide⟩
  obtain ⟨shown, onTheWay⟩ := finite_headings headed
  have nonneg : (0 : Float32) ≤ 0.282 := by decide +kernel
  have below : (0.282 : Float32) < 1 := by decide +kernel
  exact ⟨headed, by decide +kernel, (shown giddySteps).2, nonneg, below,
    onTheWay 0.282 nonneg below⟩

end Troupe.Playback.Tween
