import Troupe.Actor.Id
import Troupe.Script.Block

/-! # Failures

Why a call to the stage is refused. Playing a script never fails.
-/

namespace Troupe.Stage

open Troupe.Script (BlockId)

/-- Why a call is refused. -/
inductive Failure where
  | unknownActor (actor : ActorId)
  | unknownTemplate (id : String)
  | unknownBlock (actor : ActorId) (block : BlockId)
  | notALoop (block : BlockId)
  | indexOutOfRange (index length : Nat)
  | runInProgress
deriving Repr, DecidableEq, Inhabited

def Failure.message : Failure → String
  | .unknownActor actor => "no actor with id " ++ actor.label
  | .unknownTemplate id => "no sprite template named '" ++ id ++ "'"
  | .unknownBlock actor block => "actor " ++ actor.label ++ " has no block " ++ block.label
  | .notALoop block => "block " ++ block.label ++ " is not a repeat and cannot hold children"
  | .indexOutOfRange index length =>
    "index " ++ toString index ++ " out of range for script of length " ++ toString length
  | .runInProgress => "a run is in progress"

end Troupe.Stage
