import Troupe.Geometry.Pose
import Troupe.Geometry.Segment
import Troupe.Playback.Duration
import Troupe.Swap.Choreography

/-! # Settings

What a stage is set up with: its size, the sprites to choose from, how long effects take
and which swaps a run makes.
-/

namespace Troupe.Stage

open Troupe.Geometry
open Troupe.Swap (Choreography)

structure Template where
  id : String
  name : String
  image : String
  home : Point
deriving Repr, Inhabited

def defaultTemplates : List Template :=
  [⟨"cat", "Cat", "https://en.scratch-wiki.info/w/images/ScratchCat3.0.svg", .origin⟩,
    ⟨"dog", "Dog", "sprites/dog.svg", ⟨200, 0⟩⟩,
    ⟨"ball", "Ball", "sprites/ball.svg", ⟨400, 0⟩⟩]

/-- What a stage is set up with. Sprites are squares of `spriteSize` pixels, durations
    are nanoseconds, and `stepBudget` is how many effects an actor may start in one
    frame. -/
structure Settings where
  width : Float32
  height : Float32
  spriteSize : Float32
  moveDuration : Nat
  turnDuration : Nat
  crossingTolerance : Float32
  proximityRadius : Float32
  stepBudget : Nat
  choreography : Choreography
  templates : List Template
deriving Repr, Inhabited

namespace Settings

def standard : Settings where
  width := 1000
  height := 550
  spriteSize := 100
  moveDuration := 500 * Playback.Duration.perMillisecond
  turnDuration := 300 * Playback.Duration.perMillisecond
  crossingTolerance := defaultTolerance
  proximityRadius := 80
  stepBudget := 1024
  choreography := .predictive
  templates := defaultTemplates

def bounds (settings : Settings) : Bounds :=
  .ofStage settings.width settings.height settings.spriteSize

def template? (settings : Settings) (id : String) : Option Template :=
  settings.templates.find? (·.id = id)

def withChoreography (settings : Settings) (choreography : Choreography) : Settings :=
  { settings with choreography }

def withSize (settings : Settings) (width height : Float32) : Settings :=
  { settings with width, height }

end Settings

end Troupe.Stage
