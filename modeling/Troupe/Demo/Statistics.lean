import Troupe.Decimal.Fixed
import Troupe.Playback.Duration

/-! # Statistics

What the demo tells about its own speed.

* `TickWindow` — time spent in ticks, told once per window of five seconds.
* `PhaseAverages` — smoothed times of the phases of a frame.
-/

namespace Troupe.Demo

open Troupe.Decimal (fixedText)
open Troupe.Playback

/-! ## Cost of ticks -/

/-- The ticks since the start of a window: how many, the time spent in them and the
    longest one, in nanoseconds. -/
structure TickWindow where
  windowStart : Nat
  ticks : Nat
  spent : Nat
  worst : Nat
deriving Repr, DecidableEq, Inhabited

namespace TickWindow

def windowSeconds : Float := 5

def new (now : Nat) : TickWindow :=
  ⟨now, 0, 0, 0⟩

def line (cost : TickWindow) (window : Float) : String :=
  let ticks := Float.ofNat cost.ticks
  fixedText 0 (ticks / window) ++ " ticks/s | tick cost avg "
    ++ fixedText 3 (Duration.toDouble cost.spent * 1000 / ticks) ++ "ms, worst "
    ++ fixedText 3 (Duration.toDouble cost.worst * 1000) ++ "ms"

/-- Counts one tick. A window that has been open long enough is closed: its line is
    given and a new window starts. -/
def record (cost : TickWindow) (now tick : Nat) : TickWindow × Option String :=
  let counted : TickWindow :=
    { cost with
      ticks := cost.ticks + 1, spent := cost.spent + tick, worst := max cost.worst tick }
  let window := Duration.toDouble (now - cost.windowStart)
  if window < windowSeconds then (counted, none) else (new now, some (counted.line window))

end TickWindow

/-! ## Phases of a frame -/

inductive Phase where
  | choreography
  | step
  | proximity
deriving Repr, DecidableEq, Inhabited

namespace Phase

def all : List Phase :=
  [.choreography, .step, .proximity]

def label : Phase → String
  | .choreography => "Choreography"
  | .step => "Step"
  | .proximity => "Proximity"

end Phase

structure PhaseAverages where
  choreography : Float
  step : Float
  proximity : Float
deriving Repr, Inhabited

namespace PhaseAverages

def zero : PhaseAverages :=
  ⟨0, 0, 0⟩

/-- The weight of a new sample. -/
def weight : Float := 0.1

def get (averages : PhaseAverages) : Phase → Float
  | .choreography => averages.choreography
  | .step => averages.step
  | .proximity => averages.proximity

def blend (value sample : Float) : Float :=
  value * (1 - weight) + sample * weight

def record (averages : PhaseAverages) (phase : Phase) (sample : Float) : PhaseAverages :=
  match phase with
  | .choreography => { averages with choreography := blend averages.choreography sample }
  | .step => { averages with step := blend averages.step sample }
  | .proximity => { averages with proximity := blend averages.proximity sample }

def summary (averages : PhaseAverages) : String :=
  String.intercalate " | " <|
    Phase.all.map fun phase => phase.label ++ ": " ++ fixedText 0 (averages.get phase) ++ "us"

end PhaseAverages

end Troupe.Demo
