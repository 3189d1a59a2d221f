import Troupe.Proofs.Geometry.Bounds
import Troupe.Proofs.Script.Cursor

/-! # A projection folds the actions of a script

Looking ahead takes the actions that a cursor has left one by one and carries each out at
once, so where it ends is a fold over them. No action leads out of the bounds, whatever its
parameters are.
-/

namespace Troupe.Script

open Troupe.Geometry (Pose Bounds)
open Troupe.Number (Trigonometry)

variable [Trigonometry]

/-- The pose after an action, its effect having played out. -/
def Action.lead (bounds : Bounds) (pose : Pose) (action : Action) : Pose :=
  (action.effect pose bounds).finalPose pose

theorem Action.keeps_lead {bounds : Bounds} {pose : Pose} (inside : bounds.Keeps pose.position)
    (action : Action) : bounds.Keeps (action.lead bounds pose).position := by
  cases action with
  | walk | walkTo => exact bounds.keeps_clamp _
  | rotate | «show» => exact inside

theorem Cursor.finalPose_eq_foldl (cursor : Cursor) (pose : Pose) (bounds : Bounds) :
    cursor.finalPose pose bounds = cursor.upcoming.foldl (Action.lead bounds) pose := by
  fun_induction finalPose cursor pose bounds with
  | case1 cursor pose moved asked =>
    rw [(upcoming_of_next_none asked).1, List.foldl_nil]
  | case2 cursor pose action moved asked ih =>
    rw [ih, upcoming_of_next_some asked, List.foldl_cons]
    rfl

theorem projectedPose_eq_foldl (script : List Block) (start : Pose) (bounds : Bounds) :
    projectedPose script start bounds =
      (Playlist.ofScript script).expand.foldl (Action.lead bounds) start := by
  rw [projectedPose, Cursor.finalPose_eq_foldl, Cursor.ofScript, upcoming_ofPlaylist]

theorem keeps_projectedPose {start : Pose} {bounds : Bounds} (inside : bounds.Keeps start.position)
    (script : List Block) : bounds.Keeps (projectedPose script start bounds).position := by
  rw [projectedPose_eq_foldl]
  induction (Playlist.ofScript script).expand generalizing start with
  | nil => exact inside
  | cons action rest ih => exact ih (action.keeps_lead inside)

end Troupe.Script
