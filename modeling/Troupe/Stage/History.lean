import Troupe.Stage.Editing
import Troupe.Stage.Performance

/-! # Histories

What can happen to a stage: any calls in any order, refused ones included.

* `Call` — the calls that can change a stage, as data.
* `Stage.call`, `Stage.after` — what becomes of a call, and of the stage.
* `Reachable` — the stages that some history of calls leads to.
-/

namespace Troupe.Stage

open Troupe.Geometry (Point)
open Troupe.Number (Trigonometry)
open Troupe.Script (Block BlockId Params)
open Troupe.Swap (Choreography)

inductive Call where
  | add (template : String)
  | remove (actor : ActorId)
  | select (actor : ActorId)
  | drag (actor : ActorId) (position : Point)
  | resize (width height : Float32)
  | reset
  | append (actor : ActorId) (block : Block)
  | insert (actor : ActorId) (index : Nat) (block : Block)
  | appendInside (actor : ActorId) (parent : BlockId) (block : Block)
  | erase (actor : ActorId) (block : BlockId)
  | moveBlock (actor : ActorId) (source target : Nat)
  | mergeParams (actor : ActorId) (block : BlockId) (partials : Params)
  | choose (choreography : Choreography)
  | start (now : Nat)
  | tick (now : Nat)
deriving Repr, Inhabited

variable [IdSource] [Trigonometry]

/-- Whether a call was carried out, and the stage afterwards. -/
def withoutAnswer {α : Type} (result : Except Failure α × Stage) : Except Failure Unit × Stage :=
  (result.1.map fun _ => (), result.2)

/-- Whether a call is carried out or refused, and the stage afterwards. -/
def call (stage : Stage) : Call → Except Failure Unit × Stage
  | .add template => withoutAnswer (stage.add template)
  | .remove actor => stage.remove actor
  | .select actor => stage.select actor
  | .drag actor position => withoutAnswer (stage.drag actor position)
  | .resize width height => (.ok (), stage.resize width height)
  | .reset => stage.reset
  | .append actor block => withoutAnswer (stage.append actor block)
  | .insert actor index block => withoutAnswer (stage.insert actor index block)
  | .appendInside actor parent block => withoutAnswer (stage.appendInside actor parent block)
  | .erase actor block => withoutAnswer (stage.erase actor block)
  | .moveBlock actor source target => stage.moveBlock actor source target
  | .mergeParams actor block partials => stage.mergeParams actor block partials
  | .choose choreography => (.ok (), stage.choose choreography)
  | .start now => (.ok (), (stage.start now).2)
  | .tick now => (.ok (), stage.tick now)

def after (stage : Stage) (call : Call) : Stage :=
  (stage.call call).2

def afterAll (stage : Stage) (calls : List Call) : Stage :=
  calls.foldl after stage

/-- The stages that calls lead to from a stage without actors. -/
inductive Reachable (settings : Settings) : Stage → Prop where
  | new : Reachable settings (.new settings)
  | after {stage : Stage} (call : Call) :
      Reachable settings stage → Reachable settings (stage.after call)

end Troupe.Stage
