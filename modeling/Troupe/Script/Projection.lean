import Troupe.Script.Cursor

/-! # Projection

Where a script leaves a sprite, without playing it: the walk of the animated run with
every effect carried out at once.
-/

namespace Troupe.Script

open Troupe.Geometry (Pose Bounds)
open Troupe.Number (Trigonometry)

variable [Trigonometry]

def Cursor.finalPose (cursor : Cursor) (pose : Pose) (bounds : Bounds) : Pose :=
  match _hnext : cursor.next with
  | (none, _) => pose
  | (some action, moved) => finalPose moved ((action.effect pose bounds).finalPose pose) bounds
termination_by cursor.work
decreasing_by exact Cursor.work_next_lt _hnext

def projectedPose (script : List Block) (start : Pose) (bounds : Bounds) : Pose :=
  (Cursor.ofScript script).finalPose start bounds

end Troupe.Script
