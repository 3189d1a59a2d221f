import Troupe.Number.Conversion

/-! # Sine and cosine from outside

Where a walk ends depends on a sine and a cosine, and of those no more is certain than that they
lie between minus one and one. So whatever depends on them takes both functions from outside.

* `Trigonometry` — sine and cosine of angles in radians.
* `radians` — degrees to radians, one multiplication.
-/

namespace Troupe.Number

/-- Sine and cosine of angles in radians. -/
class Trigonometry where
  sine : Float32 → Float32
  cosine : Float32 → Float32

/-- Degrees in radians: one multiplication by the single-precision number nearest to
    `π / 180`. -/
def radians (degrees : Float32) : Float32 :=
  degrees * Float32.ofBits 0x3c8efa35

end Troupe.Number
