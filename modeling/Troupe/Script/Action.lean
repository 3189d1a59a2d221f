import Troupe.Geometry.Pose
import Troupe.Script.Block

/-! # Actions and effects

* `Message` — what a sprite shows in its bubble.
* `Action` — what a block asks for, read from its parameters.
* `Effect` — what an action does to a sprite in a given pose.
-/

namespace Troupe.Script

open Troupe.Geometry
open Troupe.Number (Trigonometry)

/-! ## Messages -/

inductive Bubble where
  | hidden
  | speech
  | thought
deriving Repr, DecidableEq, Inhabited

structure Message where
  text : String
  bubble : Bubble
deriving Repr, DecidableEq, Inhabited

def Message.none : Message := ⟨"", .hidden⟩

def Message.isEmpty (message : Message) : Bool :=
  message.bubble = .hidden && message.text.isEmpty

/-! ## Actions -/

inductive Action where
  | walk (steps : Float32)
  | rotate (degrees : Float32)
  | walkTo (target : Point)
  | show (message : Message) (seconds : Float32)
deriving Repr, Inhabited

/-- The action of a block; loops and unknown kinds have none of their own. -/
def Block.action? (block : Block) : Option Action :=
  let params := block.params
  match block.kind with
  | .move => some (.walk (params.amount "steps"))
  | .turn => some (.rotate (params.amount "degrees"))
  | .goTo => some (.walkTo ⟨params.amount "x", params.amount "y"⟩)
  | .say =>
    some (.show ⟨params.text "message" defaultSpeech, .speech⟩
      (params.seconds "seconds" defaultSeconds))
  | .think =>
    some (.show ⟨params.text "message" defaultThought, .thought⟩
      (params.seconds "seconds" defaultSeconds))
  | .loop => none
  | .unknown _ => none

/-! ## Effects -/

/-- What an action does to a sprite: a way from one position to another, a turn from one
    heading to another, or a bubble for some seconds. -/
inductive Effect where
  | move (start finish : Point)
  | turn (start finish : Float32)
  | show (message : Message) (seconds : Float32)
deriving Repr, Inhabited

/-- The effect of an action on a sprite in `pose`. Positions stay inside the bounds and
    headings inside the finite range. -/
def Action.effect [Trigonometry] (action : Action) (pose : Pose) (bounds : Bounds) : Effect :=
  match action with
  | .walk steps => .move pose.position (pose.advanced steps bounds)
  | .rotate degrees =>
    .turn pose.rotation
      (Number.clamp (-Number.largest32) Number.largest32 (pose.rotation + degrees))
  | .walkTo target => .move pose.position (bounds.clamp target)
  | .show message seconds => .show message seconds

def Effect.finalPose (effect : Effect) (pose : Pose) : Pose :=
  match effect with
  | .move _ finish => pose.movedTo finish
  | .turn _ finish => pose.turnedTo finish
  | .show _ _ => pose

end Troupe.Script
