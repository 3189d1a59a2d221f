import Troupe.Geometry.Pose
import Troupe.Playback.Duration

/-! # Tweens and pauses

What keeps a sprite busy for a while. Both take their starting time from the first step,
so how long ago they were made does not matter, and neither does the spacing of the
steps. A clock that goes backwards counts as no time passed.

* `Tween` — a straight way from one pose to another.
* `Pause` — a wait, while a bubble is up.
-/

namespace Troupe.Playback

open Troupe.Geometry
open Troupe.Number (larger smaller)

inductive Progress where
  | pending
  | done
deriving Repr, DecidableEq, Inhabited

/-! ## Tweens -/

structure Tween where
  start : Pose
  finish : Pose
  duration : Nat
  startedAt : Option Nat
deriving Repr, Inhabited

namespace Tween

def new (start finish : Pose) (duration : Nat) : Tween :=
  ⟨start, finish, duration, none⟩

/-- The fraction of the way covered after some time: all of it when there is no way or no
    time to cover. -/
def fraction (tween : Tween) (elapsed : Nat) : Float32 :=
  if tween.duration = 0 || tween.start == tween.finish then 1
  else smaller (Duration.toSingle elapsed / Duration.toSingle tween.duration) 1

/-- The pose at a fraction of the way, inside the bounds. The heading is a weighted sum,
    which stays between two headings however far apart they are. -/
def poseAt (tween : Tween) (fraction : Float32) (bounds : Bounds) : Pose :=
  let pose : Pose :=
    if 1 ≤ fraction then tween.finish
    else
      ⟨tween.start.position.between tween.finish.position fraction,
        tween.start.rotation * (1 - fraction) + tween.finish.rotation * fraction⟩
  pose.movedTo (bounds.clamp pose.position)

/-- One step at time `now`: the tween, the pose to show and whether the way is covered. -/
def step (tween : Tween) (now : Nat) (bounds : Bounds) : Tween × Pose × Progress :=
  let startedAt := tween.startedAt.getD now
  let fraction := tween.fraction (now - startedAt)
  ({ tween with startedAt := some startedAt }, tween.poseAt fraction bounds,
    if 1 ≤ fraction then .done else .pending)

end Tween

/-! ## Pauses -/

structure Pause where
  duration : Nat
  startedAt : Option Nat
deriving Repr, DecidableEq, Inhabited

namespace Pause

def new (duration : Nat) : Pause :=
  ⟨duration, none⟩

/-- A pause of some seconds: none for a negative number, and the greatest duration for
    more than that. -/
def ofSeconds (seconds : Float32) : Pause :=
  new ((Duration.ofSingle? (larger seconds 0)).getD Duration.longest)

def step (pause : Pause) (now : Nat) : Pause × Progress :=
  let startedAt := pause.startedAt.getD now
  ({ pause with startedAt := some startedAt },
    if pause.duration ≤ now - startedAt then .done else .pending)

end Pause

end Troupe.Playback
