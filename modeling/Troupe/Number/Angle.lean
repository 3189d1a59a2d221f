import Troupe.Number.Trigonometry

/-! # Sine and cosine

Sine and cosine of a single-precision angle, each rounded once. The angle is exact in
fixed point with 320 fractional bits; division by a quarter turn leaves the quadrant and
a rest below `π / 2`, and the power series of that rest is summed in fixed point. An
angle is at most `2 ^ 128`, so the quarter turn is known to more than 190 bits after the
reduction and the error stays far below the last place of the result.

* `Reduced` — an angle as quadrant and rest.
* `sine`, `cosine` — of an angle in radians, and the instance that programs run with.
-/

namespace Troupe.Number

open Float.Model (UnpackedFloat)
open Float.Model.UnpackedFloat (Sign)

/-! ## Fixed point -/

/-- Number of fractional bits of the fixed-point numbers in this module. -/
def fractionBits : Nat := 320

/-- One, in fixed point. -/
def unit : Nat := powerOfTwo fractionBits

def quarterTurn : Nat :=
  0x1921fb54442d18469898cc51701b839a252049c1114cf98e804177d4c76273644a29410f31c6809bb

/-- An angle of some whole quarter turns, counted modulo four, and a rest that is less
    than one of them. -/
structure Reduced where
  quadrant : Nat
  rest : Nat
deriving Repr, DecidableEq

def Reduced.ofAngle (angle : Nat) : Reduced :=
  ⟨angle / quarterTurn % 4, angle % quarterTurn⟩

/-! ## Power series -/

/-- An alternating series of `count` terms: the term after `term` is
    `term * square / (n * (n + 1))`, and `n` then grows by two. -/
def alternatingSeries (square : Nat) : (count n term : Nat) → Int
  | 0, _, _ => 0
  | count + 1, n, term =>
    (term : Int) -
      alternatingSeries square count (n + 2) (term * square / unit / (n * (n + 1)))

/-- Terms after this many are zero in fixed point for a rest below a quarter turn. -/
def seriesLength : Nat := 40

/-- Sine of a rest below a quarter turn, in fixed point between zero and one. -/
def sineOfRest (rest : Nat) : Nat :=
  min (alternatingSeries (rest * rest / unit) seriesLength 2 rest).toNat unit

/-- Cosine of a rest below a quarter turn, in fixed point between zero and one. -/
def cosineOfRest (rest : Nat) : Nat :=
  min (alternatingSeries (rest * rest / unit) seriesLength 1 unit).toNat unit

def Reduced.sine (angle : Reduced) : Sign × Nat :=
  match angle.quadrant with
  | 0 => (.positive, sineOfRest angle.rest)
  | 1 => (.positive, cosineOfRest angle.rest)
  | 2 => (.negative, sineOfRest angle.rest)
  | _ => (.negative, cosineOfRest angle.rest)

def Reduced.cosine (angle : Reduced) : Sign × Nat :=
  match angle.quadrant with
  | 0 => (.positive, cosineOfRest angle.rest)
  | 1 => (.negative, sineOfRest angle.rest)
  | 2 => (.negative, cosineOfRest angle.rest)
  | _ => (.positive, sineOfRest angle.rest)

/-! ## Angles in single precision -/

/-- The magnitude `mantissa * 2 ^ exponent` in fixed point, exact for every exponent
    that single precision has. -/
def fixedPoint (mantissa : Nat) (exponent : Int) : Nat :=
  mantissa * powerOfTwo (exponent + fractionBits).toNat

/-- The single-precision number nearest to a signed fixed-point magnitude. -/
def ofFixedPoint (sign : Sign) (magnitude : Nat) : Float32 :=
  ofFields32 (UnpackedFloat.round .binary32 sign magnitude (-(fractionBits : Int)))

/-- Sine of an angle in radians; `NaN` for infinities, and a zero keeps its sign. -/
def sine (angle : Float32) : Float32 :=
  match fields32 angle with
  | .notANumber => ofFields32 .notANumber
  | .infinity _ => ofFields32 .notANumber
  | .zero sign => ofFields32 (.zero sign)
  | .finite sign mantissa exponent _ =>
    let (turned, magnitude) := (Reduced.ofAngle (fixedPoint mantissa exponent)).sine
    ofFixedPoint (sign * turned) magnitude

/-- Cosine of an angle in radians; `NaN` for infinities. -/
def cosine (angle : Float32) : Float32 :=
  match fields32 angle with
  | .notANumber => ofFields32 .notANumber
  | .infinity _ => ofFields32 .notANumber
  | .zero _ => 1
  | .finite _ mantissa exponent _ =>
    let (turned, magnitude) := (Reduced.ofAngle (fixedPoint mantissa exponent)).cosine
    ofFixedPoint turned magnitude

instance : Trigonometry := ⟨sine, cosine⟩

example : (cosine (radians 180)).toBits = (-1 : Float32).toBits := by decide +kernel
example : (sine (radians 90)).toBits = (1 : Float32).toBits := by decide +kernel

end Troupe.Number
