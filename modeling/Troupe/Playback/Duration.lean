import Troupe.Number.Conversion
import Troupe.Number.Quotient

/-! # Durations

Times and durations are whole nanoseconds. Seconds in floating point are exact values, so
reading them rounds once, a half nanosecond going to the even neighbour; writing them
adds whole seconds and the fraction, each rounded on its own.

* `ofSingle?`, `ofDouble?` — seconds to nanoseconds.
* `toSingle`, `toDouble` — nanoseconds to seconds.
* `longest` — the greatest duration there is.
-/

namespace Troupe.Playback.Duration

open Float.Model (UnpackedFloat)
open Troupe.Number (fields32 fields64 nearestQuotient powerOfTwo)

def perSecond : Nat := 1000000000

def perMillisecond : Nat := 1000000

/-- The greatest duration: `2 ^ 64` seconds less one nanosecond. -/
def longest : Nat := powerOfTwo 64 * perSecond - 1

/-- Nanoseconds of a number of seconds; nothing for a negative number and for more than
    the greatest duration. -/
def ofFields? : UnpackedFloat → Option Nat
  | .zero _ => some 0
  | .finite .positive mantissa exponent _ =>
    let nanoseconds :=
      nearestQuotient (mantissa * powerOfTwo exponent.toNat * perSecond)
        (powerOfTwo (-exponent).toNat)
    if nanoseconds ≤ longest then some nanoseconds else none
  | _ => none

def ofSingle? (seconds : Float32) : Option Nat :=
  ofFields? (fields32 seconds)

def ofDouble? (seconds : Float) : Option Nat :=
  ofFields? (fields64 seconds)

def toSingle (duration : Nat) : Float32 :=
  Float32.ofNat (duration / perSecond)
    + Float32.ofNat (duration % perSecond) / Float32.ofNat perSecond

def toDouble (duration : Nat) : Float :=
  Float.ofNat (duration / perSecond)
    + Float.ofNat (duration % perSecond) / Float.ofNat perSecond

example : ofSingle? 0.25 = some 250000000 ∧ ofSingle? 1e30 = none := by decide +kernel

end Troupe.Playback.Duration
