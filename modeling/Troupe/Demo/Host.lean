import Troupe.Actor.Pool
import Troupe.Decimal.Fixed
import Troupe.Demo.Options
import Troupe.Demo.Random
import Troupe.Number.Angle
import Troupe.Stage.Editing
import Troupe.Stage.Performance

/-! # The demo

A host sets up a stage, fills it with actors and lets them perform.

* `Host.addCrossingPair` — two cats whose ways cross.
* `Host.addExtras` — actors with random scripts.
* `Host.start`, `Host.tick` — the performance, with the line that announces it.
* `Host.poses` — where everyone is.
-/

namespace Troupe.Demo

open Troupe.Geometry
open Troupe.Script
open Troupe.Stage (Failure)
open Troupe.Number (widen)
open Troupe.Decimal (fixedText)

/-- A stage with all that filling it takes: random numbers, block identities and the time
    from one frame to the next. -/
structure Host where
  stage : Stage
  random : Random
  supply : Supply
  frameDuration : Nat
deriving Inhabited

namespace Host

def new (settings : Stage.Settings) (seed frameDuration : Nat) : Host :=
  ⟨.new settings, .ofSeed seed, ⟨1⟩, frameDuration⟩

/-- The host that a command line asks for, with a seed for when it gives none. -/
def ofOptions (options : Options) (seed : Nat) : Host :=
  new options.settings (options.seed.getD seed) options.frameDuration

/-! ## Filling the stage -/

/-- Calls to the stage of a host, one after the other, up to the first that is refused. -/
abbrev OnHost := ExceptT Failure (StateM Host)

def onStage {α : Type} (call : Stage → Except Failure α × Stage) : OnHost α :=
  ExceptT.mk fun host =>
    let (answer, stage) := call host.stage
    (answer, { host with stage })

def named {α : Type} (naming : Naming α) : OnHost α :=
  ExceptT.mk fun host =>
    let (made, supply) := naming.run host.supply
    (.ok made, { host with supply })

def drawn {α : Type} (drawing : Drawing α) : OnHost α :=
  ExceptT.mk fun host =>
    let (drawn, random) := drawing.run host.random
    (.ok drawn, { host with random })

def appendAll (actor : ActorId) (blocks : List Block) : OnHost Unit :=
  blocks.forM fun block => do
    let _ ← onStage (·.append actor block)

/-! ## Two crossing cats -/

/-- The scripts of two cats in the upper corners of the bounds, each on its way to the
    lower corner below the other. -/
def crossingScripts (max : Point) : Naming (List Block × List Block) := do
  let greeting ← Block.say "Over there!" 0.5
  let toRight ← Block.goTo max.x max.y
  let turn ← Block.turn 180
  let toLeft ← Block.goTo 0 max.y
  let thought ← Block.think "Hmm..." 0.5
  return ([greeting, toRight], [turn, toLeft, thought])

def addCrossingPair : OnHost Unit := do
  let max := (← get).stage.bounds.max
  let left ← onStage (·.add "cat")
  let right ← onStage (·.add "cat")
  let _ ← onStage (·.drag left .origin)
  let _ ← onStage (·.drag right ⟨max.x, 0⟩)
  let (leftScript, rightScript) ← named (crossingScripts max)
  appendAll left leftScript
  appendAll right rightScript

/-! ## Extras -/

def extraScriptLength : Nat := 6

def randomPoint (max : Point) : Drawing Point := do
  let x ← Random.unit
  let y ← Random.unit
  return ⟨x * max.x, y * max.y⟩

def randomBlock (max : Point) : Drawing (Naming Block) := do
  match ← Random.below 32 4 with
  | 0 => return Block.move ((← Random.unit) * 200)
  | 1 => return Block.turn ((← Random.unit) * 360 - 180)
  | 2 =>
    let target ← randomPoint max
    return Block.goTo target.x target.y
  | _ => return Block.say "!" 0.25

def randomLoop : Drawing (List (Naming Block)) := do
  if ← Random.flip then
    let times ← Random.below 32 3
    return [Block.loop (times + 1) []]
  else return []

def randomScript (max : Point) : Drawing (List (Naming Block)) := do
  let loop ← randomLoop
  let blocks ← (List.replicate extraScriptLength (randomBlock max)).mapM id
  return loop ++ blocks

/-- Adds one actor from a random template, at a random place and with a random script. -/
def addExtra (templates : List String) (max : Point) : OnHost Unit := do
  let choice ← drawn (Random.below 64 templates.length)
  let actor ← onStage (·.add (templates.getD choice ""))
  let place ← drawn (randomPoint max)
  let _ ← onStage (·.drag actor place)
  let script ← drawn (randomScript max)
  appendAll actor (← named (script.mapM id))

/-- Adds actors with random scripts; none when there is no template. -/
def addExtras (count : Nat) : OnHost Unit := do
  let stage := (← get).stage
  let templates := stage.settings.templates.map (·.id)
  if templates.isEmpty then return
  (List.range count).forM fun _ => addExtra templates stage.bounds.max

/-! ## Performing -/

/-- Nanoseconds after which the host gives up on a performance. -/
def patience : Nat := 600 * Playback.Duration.perSecond

def start (host : Host) (now : Nat) : List String × Host :=
  match host.stage.start now with
  | (.started actors swaps, stage) =>
    (["running " ++ toString actors ++ " actors (" ++ toString swaps ++ " crossing swaps)"],
      { host with stage })
  | (.alreadyRunning, stage) | (.nothingToRun, stage) => ([], { host with stage })

def tick (host : Host) (now : Nat) : Host :=
  { host with stage := host.stage.tick now }

/-- Frames at even distances from `now` on, at most the given number of them, until the
    performance is over. -/
def frames (host : Host) (now : Nat) : (count : Nat) → Host
  | 0 => host
  | count + 1 =>
    if host.stage.running then (host.tick (now + host.frameDuration)).frames
      (now + host.frameDuration) count
    else host

/-- A whole performance with frames at even distances, given up when it takes too long. -/
def perform (host : Host) (now : Nat) : List String × Host :=
  match host.start now with
  | ([], host) => ([], host)
  | (lines, host) => (lines, host.frames now (patience / max host.frameDuration 1 + 1))

/-! ## Where everyone is -/

def poseLine (actor : Actor) : String :=
  actor.name ++ " " ++ actor.id.label
    ++ ": (" ++ fixedText 1 (widen actor.pose.position.x)
    ++ ", " ++ fixedText 1 (widen actor.pose.position.y)
    ++ ") facing " ++ fixedText 0 (widen actor.pose.displayRotation) ++ " deg"

/-- A line about every actor, in the order in which they were created. -/
def poses (host : Host) : List String :=
  host.stage.roster.map poseLine

end Host

end Troupe.Demo
