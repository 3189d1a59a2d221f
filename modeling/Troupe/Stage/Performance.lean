import Troupe.Script.Projection
import Troupe.Stage.Basic
import Troupe.Swap.Plan

/-! # Performances

All scripted actors play at once. `Stage.start` looks ahead where every script leads,
swaps the scripts of actors whose paths cross if the choreography says so, and begins a
run for each. `Stage.tick` lets every run go as far as it can, swaps the scripts of
actors that met, and ends the performance when every run is finished.

* `Lineup` — the actors of a performance with the scripts and destinations they get.
* `Stage.start`, `Stage.tick` — the calls.
* `Stage.exchange` — two actors trade scripts and the places in them.
-/

namespace Troupe.Stage

open Troupe.Geometry
open Troupe.Number (Trigonometry)
open Troupe.Script
open Troupe.Playback
open Troupe.Swap (Plan)

/-! ## The lineup -/

/-- One actor of a performance, as it is before anything moves: the script it gets, the
    pose to walk to first if another actor's script came to it. -/
structure Part where
  actor : Actor
  script : List Block
  handOff : Option Pose
deriving Repr, Inhabited

/-- The parts of a performance and how many swaps led to them. -/
structure Lineup where
  parts : List Part
  swaps : Nat
deriving Repr, Inhabited

variable [Trigonometry]

def crossingPlan (settings : Settings) (cast : List Actor) (destinations : List Pose) : Plan :=
  if settings.choreography.swapsCrossing then
    let path (actor : Actor) (destination : Pose) : Segment :=
      ⟨actor.pose.position, destination.position⟩
    .ofPaths (cast.zipWith path destinations) settings.crossingTolerance
  else .empty

/-- The parts of a cast. Scripts and destinations are permuted by the same plan, so an
    actor in a swap gets a script together with the place where it would have led, and
    walks straight there under its own heading. -/
def lineup (settings : Settings) (cast : List Actor) : Lineup :=
  let destinations := cast.map fun actor => projectedPose actor.script actor.pose settings.bounds
  let plan := crossingPlan settings cast destinations
  let scripts := plan.apply (cast.map (·.script))
  let destinations := plan.apply destinations
  let parts := (cast.zip (scripts.zip destinations)).zipIdx.map
    fun ((actor, script, destination), i) =>
      { actor, script
        handOff :=
          if plan.involves i then some ⟨destination.position, actor.pose.rotation⟩ else none }
  ⟨parts, plan.pairs.length⟩

def Part.run (part : Part) (moveDuration : Nat) : Run where
  actor := part.actor.id
  pose := part.handOff.getD part.actor.pose
  cursor := .ofScript part.script
  activity := part.handOff.map fun target => .tween (.new part.actor.pose target moveDuration)

/-! ## Swaps during a performance -/

variable [IdSource]

/-- Two runs trade the places in the scripts they play; what the actors are busy with
    stays. -/
def exchangeCursors (runs : List Run) (a b : ActorId) : List Run :=
  match runs.find? (·.actor = a), runs.find? (·.actor = b) with
  | some runA, some runB =>
    runs.map fun run =>
      if run.actor = a then { run with cursor := runB.cursor }
      else if run.actor = b then { run with cursor := runA.cursor }
      else run
  | _, _ => runs

/-- Two actors trade their scripts, and their runs the places in them. -/
def exchange (stage : Stage) (pair : ActorId × ActorId) : Stage :=
  match stage.actor? pair.1, stage.actor? pair.2 with
  | some a, some b =>
    let actors := stage.actors.map fun actor =>
      if actor.id = a.id then { actor with script := b.script }
      else if actor.id = b.id then { actor with script := a.script }
      else actor
    { stage with actors, runs := exchangeCursors stage.runs a.id b.id }
  | _, _ => stage

/-- The actors whose runs are not finished, with their positions. -/
def placed (stage : Stage) : List Swap.Placed :=
  stage.runs.filterMap fun run =>
    if run.isFinished then none
    else (stage.actor? run.actor).map fun actor => (actor.id, actor.pose.position)

/-- The stage after the swaps of all actors whose encounter begins now. -/
def swapMet (stage : Stage) : Stage :=
  let (met, encounters) := stage.encounters.update stage.placed
  met.foldl exchange { stage with encounters }

/-! ## Ticks -/

/-- What the runs of one frame have in common. Every run may start one effect at least. -/
def tempo (stage : Stage) : Tempo where
  bounds := stage.bounds
  moveDuration := stage.settings.moveDuration
  turnDuration := stage.settings.turnDuration
  budget := max stage.settings.stepBudget 1

def playRun (now : Nat) (tempo : Tempo) (actors : List Actor) (run : Run) : List Actor × Run :=
  match actors.find? (·.id = run.actor) with
  | none => (actors, run)
  | some actor =>
    let (run, actor) := run.play now tempo tempo.budget actor
    (actors.map fun other => if other.id = actor.id then actor else other, run)

def playRuns (now : Nat) (tempo : Tempo) : List Actor → List Run → List Actor × List Run
  | actors, [] => (actors, [])
  | actors, run :: rest =>
    let (actors, run) := playRun now tempo actors run
    let (actors, rest) := playRuns now tempo actors rest
    (actors, run :: rest)

def advance (stage : Stage) (now : Nat) : Stage :=
  let (actors, runs) := playRuns now stage.tempo stage.actors stage.runs
  { stage with actors, runs }

/-- The stage after the swaps that the choreography asks for during a performance. -/
def meet (stage : Stage) : Stage :=
  if stage.animating && stage.settings.choreography.swapsClose then stage.swapMet else stage

def dismiss (stage : Stage) : Stage :=
  { stage with
    runs := [], encounters := stage.encounters.forget, running := false, animating := false }

/-- The stage without a performance if every run of it is finished. -/
def conclude (stage : Stage) : Stage :=
  if stage.runs.all Run.isFinished then stage.dismiss else stage

/-- One frame of the performance at time `now`; nothing happens without one. -/
def tick (stage : Stage) (now : Nat) : Stage :=
  if stage.running then ((stage.advance now).meet).conclude else stage

/-! ## Starts -/

inductive Started where
  | started (actors swaps : Nat)
  | alreadyRunning
  | nothingToRun
deriving Repr, DecidableEq, Inhabited

/-- The stage with the runs of a lineup begun and the scripts of those in a swap
    replaced. -/
def launch (stage : Stage) (lineup : Lineup) : Stage :=
  let actors := stage.actors.map fun actor =>
    match lineup.parts.find? (·.actor.id = actor.id) with
    | some part => if part.handOff.isSome then { actor with script := part.script } else actor
    | none => actor
  { stage with
    actors
    runs := lineup.parts.map (·.run stage.settings.moveDuration)
    encounters := stage.encounters.forget
    running := true
    animating := true }

/-- Starts a performance of all scripted actors, and plays its first frame. Nothing
    changes when one is in progress or nobody has a script. -/
def start (stage : Stage) (now : Nat) : Started × Stage :=
  if stage.running then (.alreadyRunning, stage)
  else
    let cast := stage.roster.filter Actor.isScripted
    if cast.isEmpty then (.nothingToRun, stage)
    else
      let lineup := lineup stage.settings cast
      (.started cast.length lineup.swaps, (stage.launch lineup).tick now)

end Troupe.Stage
