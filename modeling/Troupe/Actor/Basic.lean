import Troupe.Actor.Id
import Troupe.Script.Action

/-! # Actors

An actor is a sprite on the stage with everything that belongs to it.
-/

namespace Troupe

open Troupe.Geometry
open Troupe.Script (Message Block)

/-- A sprite on the stage: what it looks like, where it returns to, where it is, what it
    shows and the script written for it. -/
structure Actor where
  id : ActorId
  name : String
  image : String
  template : String
  home : Point
  pose : Pose
  message : Message
  script : List Block
deriving Repr, Inhabited

namespace Actor

def movedTo (actor : Actor) (position : Point) : Actor :=
  { actor with pose := actor.pose.movedTo position }

/-- The actor at its home inside the bounds, with heading zero and no bubble. -/
def reset (actor : Actor) (bounds : Bounds) : Actor :=
  { actor with pose := ⟨bounds.clamp actor.home, 0⟩, message := .none }

def isScripted (actor : Actor) : Bool :=
  !actor.script.isEmpty

end Actor

end Troupe
