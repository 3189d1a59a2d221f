import Troupe.Demo.Host
import Troupe.Demo.Statistics

/-! # Command line

Fills a stage as the options say, lets the actors perform in real time and tells on
standard error how it goes. -/

namespace Troupe.Demo.CommandLine

open Troupe.Stage (Settings)

def usage : String :=
  String.intercalate "\n"
    ["Headless sprite stage: runs scripted actors and logs the choreography",
      "",
      "Usage: troupe [OPTIONS]",
      "",
      "Options:",
      "      --fps <FPS>        Frames per second to drive the stage at [default: 60]",
      "      --mode <MODE>      Choreography mode: off, predictive, proximity or combined"
        ++ " [default: Predictive]",
      "      --then <THEN>      Reset positions and run again under this mode after the first run",
      "      --extra <EXTRA>    Randomly scripted actors to add next to the two crossing cats"
        ++ " [default: 0]",
      "      --seed <SEED>      Seed for the random scripts (random if omitted)",
      "      --width <WIDTH>    Stage width in pixels [default: 1000]",
      "      --height <HEIGHT>  Stage height in pixels [default: 550]",
      "  -h, --help             Print help"]

def complaint : UsageError → String
  | .unknownArgument argument => "unexpected argument '" ++ argument ++ "' found"
  | .missingValue flag => "a value is required for '--" ++ flag.name ++ "' but none was supplied"
  | .invalidValue flag value => "invalid value '" ++ value ++ "' for '--" ++ flag.name ++ "'"
  | .repeatedFlag flag => "the argument '--" ++ flag.name ++ "' cannot be used multiple times"
  | .needlessValue argument => "unexpected value in '" ++ argument ++ "'"
  | .helpRequested => usage

def tell (line : String) : IO Unit := do
  (← IO.getStderr).putStrLn line

def timed {α : Type} (action : Unit → α) : IO (α × Nat) := do
  let before ← IO.monoNanosNow
  let result := action ()
  let later ← IO.monoNanosNow
  return (result, later - before)

/-- Frames in real time until the performance is over or has taken too long. -/
partial def frames (stage : Stage) (started frameDuration : Nat) (cost : TickWindow)
    (averages : PhaseAverages) : IO Stage := do
  if !stage.running then return stage
  IO.sleep (UInt32.ofNat (frameDuration / Playback.Duration.perMillisecond))
  let now ← IO.monoNanosNow
  let (stage, stepped) ← timed fun _ => stage.advance now
  let (stage, swapped) ← timed fun _ => stage.meet
  let stage := stage.conclude
  let averages := (averages.record .step (Float.ofNat stepped / 1000)).record .proximity
    (Float.ofNat swapped / 1000)
  let (cost, line) := cost.record now (stepped + swapped)
  if let some line := line then
    tell line
    tell averages.summary
  if Host.patience < now - started then
    tell "run still going after 600s; stopping the host loop"
    return stage
  frames stage started frameDuration cost averages

def perform (host : Host) : IO Host := do
  let started ← IO.monoNanosNow
  let ((lines, host), prepared) ← timed fun _ => host.start started
  lines.forM tell
  if lines.isEmpty then return host
  let averages := PhaseAverages.zero.record .choreography (Float.ofNat prepared / 1000)
  let stage ← frames host.stage started host.frameDuration (.new started) averages
  return { host with stage }

def performAndTell (host : Host) : IO Host := do
  let host ← perform host
  host.poses.forM tell
  return host

/-- The second performance, if the options ask for one and the first is over. -/
def again (host : Host) (options : Options) : IO Host := do
  match options.thenChoreography, host.stage.reset with
  | some choreography, (.ok (), stage) =>
    tell ("replaying under mode " ++ choreography.label)
    performAndTell { host with stage := stage.choose choreography }
  | _, _ => return host

def run (options : Options) : IO UInt32 := do
  let seed ← IO.rand 0 0xffffffff
  let filling : Host.OnHost Unit := do
    Host.addCrossingPair
    Host.addExtras options.extra
  match filling.run.run (Host.ofOptions options seed) with
  | (.error failure, _) =>
    tell ("Fatal error: " ++ failure.message)
    return 1
  | (.ok (), host) =>
    let host ← again (← performAndTell host) options
    if host.stage.running then
      tell "Fatal error: run did not finish within 600s"
      return 1
    return 0

end Troupe.Demo.CommandLine

def main (arguments : List String) : IO UInt32 := do
  match Troupe.Demo.Options.parse arguments with
  | .ok options => Troupe.Demo.CommandLine.run options
  | .error .helpRequested =>
    IO.println Troupe.Demo.CommandLine.usage
    return 0
  | .error error =>
    Troupe.Demo.CommandLine.tell ("error: " ++ Troupe.Demo.CommandLine.complaint error)
    return 2
