import Troupe.Stage.Failure
import Troupe.Stage.Run
import Troupe.Stage.Settings
import Troupe.Swap.Encounter

/-! # The stage

All actors, the order in which they were created, what is selected, and the run in
progress. Every call gives back a stage; one that can be refused also gives back its answer,
which is a failure if it is refused.

* `Stage.add`, `Stage.remove`, `Stage.select`, `Stage.drag` — single actors.
* `Stage.resize`, `Stage.reset` — all of them.
* `Stage.choose` — the choreography.
-/

namespace Troupe

open Troupe.Geometry
open Troupe.Stage
open Troupe.Swap (Choreography Encounters)

/-- The actors on the stage and the run in progress. Actors are found by their identities;
    it is `order` that lists the identities in the order in which actors were created. -/
structure Stage [IdSource] where
  actors : List Actor
  order : List ActorId
  ids : IdSource.Pool
  selected : Option ActorId
  settings : Settings
  running : Bool
  animating : Bool
  runs : List Run
  encounters : Encounters

namespace Stage

variable [IdSource]

/-! ## Reading -/

def new (settings : Settings) : Stage where
  actors := []
  order := []
  ids := IdSource.full
  selected := none
  settings
  running := false
  animating := false
  runs := []
  encounters := .new settings.proximityRadius

instance : Inhabited Stage := ⟨.new default⟩

def bounds (stage : Stage) : Bounds :=
  stage.settings.bounds

def actor? (stage : Stage) (id : ActorId) : Option Actor :=
  stage.actors.find? (·.id = id)

/-- The actor with an identity, or the failure that there is none. -/
def actor (stage : Stage) (id : ActorId) : Except Failure Actor :=
  match stage.actor? id with
  | some actor => .ok actor
  | none => .error (.unknownActor id)

/-- All actors in the order in which they were created. -/
def roster (stage : Stage) : List Actor :=
  stage.order.filterMap stage.actor?

/-- The stage with one actor changed; unchanged if there is no such actor. -/
def modify (stage : Stage) (id : ActorId) (change : Actor → Actor) : Stage :=
  { stage with
    actors := stage.actors.map fun actor => if actor.id = id then change actor else actor }

/-! ## Single actors -/

/-- A new actor from a template, at the template's home and selected. -/
def add (stage : Stage) (template : String) : Except Failure ActorId × Stage :=
  match stage.settings.template? template with
  | none => (.error (.unknownTemplate template), stage)
  | some template =>
    let (id, ids) := IdSource.take stage.ids
    let home := stage.bounds.clamp template.home
    let actor : Actor :=
      ⟨id, template.name, template.image, template.id, home, ⟨home, 0⟩, .none, []⟩
    (.ok id,
      { stage with
        actors := stage.actors ++ [actor], order := stage.order ++ [id], ids
        selected := some id })

/-- The stage without an actor and its run. If it was selected, the first of the others
    is selected instead. -/
def remove (stage : Stage) (id : ActorId) : Except Failure Unit × Stage :=
  match stage.actor? id with
  | none => (.error (.unknownActor id), stage)
  | some _ =>
    let order := stage.order.filter (· != id)
    (.ok (),
      { stage with
        actors := stage.actors.filter (·.id != id)
        order
        ids := IdSource.giveBack stage.ids id
        runs := stage.runs.filter (·.actor != id)
        selected := if stage.selected = some id then order.head? else stage.selected })

def select (stage : Stage) (id : ActorId) : Except Failure Unit × Stage :=
  match stage.actor? id with
  | none => (.error (.unknownActor id), stage)
  | some _ => (.ok (), { stage with selected := some id })

/-- An actor put somewhere by hand, inside the bounds; its heading stays. -/
def drag (stage : Stage) (id : ActorId) (position : Point) : Except Failure Point × Stage :=
  match stage.actor? id with
  | none => (.error (.unknownActor id), stage)
  | some _ =>
    let position := stage.bounds.clamp position
    (.ok position, stage.modify id (·.movedTo position))

/-! ## All actors -/

/-- The stage with another size. Actors outside the new bounds are pulled inside. -/
def resize (stage : Stage) (width height : Float32) : Stage :=
  let settings := stage.settings.withSize width height
  { stage with
    settings
    actors := stage.actors.map fun actor =>
      actor.movedTo (settings.bounds.clamp actor.pose.position) }

/-- All actors back at home with heading zero and no bubble; refused during a run. -/
def reset (stage : Stage) : Except Failure Unit × Stage :=
  if stage.running then (.error .runInProgress, stage)
  else (.ok (), { stage with actors := stage.actors.map (·.reset stage.bounds) })

def choose (stage : Stage) (choreography : Choreography) : Stage :=
  { stage with settings := stage.settings.withChoreography choreography }

end Stage

end Troupe
