import Troupe.Actor.Basic
import Troupe.Playback.Tween
import Troupe.Script.Cursor

/-! # Runs

A run plays one actor's script: it holds the place in the script and what the actor is
busy with. It reads and writes nothing but its own actor.

* `Run` — the state of a run.
* `Activity.step`, `Run.settle` — carries on with what the actor is busy with.
* `Run.begin` — starts the effect of an action.
* `Run.play` — goes as far as the time allows: carries on, starts the next effect, and so
  on until an effect takes longer.
-/

namespace Troupe.Stage

open Troupe.Geometry
open Troupe.Number (Trigonometry)
open Troupe.Script
open Troupe.Playback

/-! ## State -/

inductive Activity where
  | tween (tween : Tween)
  | bubble (pause : Pause)
deriving Repr, Inhabited

/-- The run of one actor. `pose` is the pose once the current activity is over; the next
    effect starts from it. -/
structure Run where
  actor : ActorId
  pose : Pose
  cursor : Cursor
  activity : Option Activity
deriving Repr, Inhabited

/-- What the runs of one frame have in common: the bounds, how long effects take, and how
    many effects a run may start. -/
structure Tempo where
  bounds : Bounds
  moveDuration : Nat
  turnDuration : Nat
  budget : Nat
deriving Repr, Inhabited

def Run.isFinished (run : Run) : Bool :=
  run.activity.isNone && run.cursor.isFinished

/-! ## Carrying on -/

/-- One step of an activity: the activity, the actor as it looks now, and whether the
    activity is over. A bubble goes away when its pause is over. -/
def Activity.step (activity : Activity) (actor : Actor) (now : Nat) (bounds : Bounds) :
    Activity × Actor × Progress :=
  match activity with
  | .tween playing =>
    let (later, pose, progress) := playing.step now bounds
    (.tween later, { actor with pose }, progress)
  | .bubble waiting =>
    let (later, progress) := waiting.step now
    let message := match progress with
      | .done => .none
      | .pending => actor.message
    (.bubble later, { actor with message }, progress)

namespace Run

/-- Carries on with the current activity, if there is one, and drops it when it is over.
    The run is `pending` while it is not. -/
def settle (run : Run) (actor : Actor) (now : Nat) (bounds : Bounds) : Run × Actor × Progress :=
  match run.activity with
  | none => (run, actor, .done)
  | some activity =>
    match activity.step actor now bounds with
    | (activity, actor, .pending) => ({ run with activity := some activity }, actor, .pending)
    | (_, actor, .done) => ({ run with activity := none }, actor, .done)

/-! ## Starting effects -/

/-- Starts an effect: a move or a turn becomes a tween to the pose it ends in, a bubble is
    shown at once. -/
def begin (run : Run) (actor : Actor) (effect : Effect) (tempo : Tempo) : Run × Actor :=
  let pose := effect.finalPose run.pose
  match effect with
  | .move _ _ =>
    ({ run with pose, activity := some (.tween (.new run.pose pose tempo.moveDuration)) }, actor)
  | .turn _ _ =>
    ({ run with pose, activity := some (.tween (.new run.pose pose tempo.turnDuration)) }, actor)
  | .show message seconds =>
    ({ run with pose, activity := some (.bubble (.ofSeconds seconds)) }, { actor with message })

/-- Goes as far as possible at time `now`, starting at most the given number of
    effects. -/
def play [Trigonometry] (now : Nat) (tempo : Tempo) : (budget : Nat) → Run → Actor → Run × Actor
  | 0, run, actor =>
    let (run, actor, _) := run.settle actor now tempo.bounds
    (run, actor)
  | budget + 1, run, actor =>
    match run.settle actor now tempo.bounds with
    | (run, actor, .pending) => (run, actor)
    | (run, actor, .done) =>
      match run.cursor.next with
      | (none, cursor) => ({ run with cursor }, actor)
      | (some action, cursor) =>
        let (run, actor) :=
          begin { run with cursor } actor (action.effect run.pose tempo.bounds) tempo
        play now tempo budget run actor

end Run

end Troupe.Stage
