import Troupe.Number.Power

/-! # Conversions between number formats

Every conversion decodes its argument into sign, mantissa and exponent, computes with
the exact value, and rounds at most once, to nearest with ties to even.

* `narrow`, `widen` — between double and single precision.
* `saturate` — double to single precision, held inside the finite range.
* `floorWord` — the floor of a single-precision number as a signed 32-bit word.
* `remainder`, `wrapDegrees` — the exact remainder by a whole number.
* `clamp`, `larger`, `smaller` — order on numbers, with the rules for `NaN` spelled out.
-/

namespace Troupe.Number

open Float.Model (UnpackedFloat Format)

/-! ## Fields -/

def fields32 (x : Float32) : UnpackedFloat :=
  x.toModel.unpack

def fields64 (x : Float) : UnpackedFloat :=
  x.toModel.unpack

def ofFields32 (u : UnpackedFloat) : Float32 :=
  .ofModel (.pack u)

def ofFields64 (u : UnpackedFloat) : Float :=
  .ofModel (.pack u)

/-- The fields rounded to the precision and range of `format`; infinities, zeros and
    `NaN` are representable everywhere and pass unchanged. -/
def roundFields (format : Format) : UnpackedFloat → UnpackedFloat
  | .finite sign mantissa exponent _ => UnpackedFloat.round format sign mantissa exponent
  | other => other

/-! ## Precision -/

/-- The single-precision number nearest to a double-precision one. -/
def narrow (x : Float) : Float32 :=
  ofFields32 (roundFields .binary32 (fields64 x))

/-- A single-precision number in double precision, which holds it exactly. -/
def widen (x : Float32) : Float :=
  ofFields64 (roundFields .binary64 (fields32 x))

/-! ## Order -/

/-- `x` moved into the interval from `low` to `high`. The comparisons fail on `NaN`, and
    on zeros of either sign, which therefore pass unchanged. -/
def clamp {α : Type} [LT α] [DecidableLT α] (low high x : α) : α :=
  if x < low then low else if high < x then high else x

/-- The larger of two numbers, or the other one when one is `NaN`. -/
def larger (x y : Float32) : Float32 :=
  if y.isNaN then x else if y < x then x else y

/-- The smaller of two numbers, or the other one when one is `NaN`. -/
def smaller (x y : Float32) : Float32 :=
  if y.isNaN then x else if x < y then x else y

def largest32 : Float32 :=
  .ofBits 0x7f7fffff

/-- The largest finite single-precision number, in double precision. -/
def largest64 : Float :=
  .ofBits 0x47efffffe0000000

/-- The nearest single-precision number, with everything beyond the finite range moved
    to the end of that range. -/
def saturate (x : Float) : Float32 :=
  narrow (clamp (-largest64) largest64 x)

example : (saturate 1e39).toBits = largest32.toBits := by decide +kernel
example : (narrow 1e39).toBits = 0x7f800000 := by decide +kernel
example : (narrow 0.1).toBits = 0x3dcccccd ∧ (widen 0.5).toBits = 0x3fe0000000000000 := by
  decide +kernel

/-! ## Whole numbers -/

/-- The floor of a number as a signed 32-bit word, held inside the range of the word;
    `NaN` goes to zero. -/
def floorWord (x : Float32) : Int32 :=
  match fields32 x with
  | .notANumber => 0
  | .zero _ => 0
  | .infinity .negative => Int32.minValue
  | .infinity .positive => Int32.maxValue
  | .finite sign mantissa exponent _ =>
    let signed := sign.apply mantissa
    Int32.ofIntClamp <|
      if 0 ≤ exponent then signed * powerOfTwo exponent.toNat
      else signed / powerOfTwo (-exponent).toNat

example : floorWord (-0.5) = -1 ∧ floorWord 2.75 = 2 ∧ floorWord (-3e9) = Int32.minValue := by
  decide +kernel

/-- The remainder of `x` by the whole number `n`, with the sign of `x`. It is a multiple
    of the last place of `x` below `x`, hence representable. -/
def remainder (x : Float32) (n : Nat) : Float32 :=
  match fields32 x with
  | .notANumber => ofFields32 .notANumber
  | .infinity _ => ofFields32 .notANumber
  | .zero sign => ofFields32 (.zero sign)
  | .finite sign mantissa exponent _ =>
    let rest :=
      if 0 ≤ exponent then
        UnpackedFloat.round .binary32 sign (mantissa * powerOfTwo exponent.toNat % n) 0
      else
        UnpackedFloat.round .binary32 sign (mantissa % (n * powerOfTwo (-exponent).toNat))
          exponent
    ofFields32 rest

/-- An angle brought to one turn: the remainder by 360, plus 360 if that is negative. -/
def wrapDegrees (degrees : Float32) : Float32 :=
  let rest := remainder degrees 360
  if rest < 0 then rest + 360 else rest

example : (wrapDegrees (-90)).toBits = (270 : Float32).toBits := by decide +kernel
example : (wrapDegrees 725).toBits = (5 : Float32).toBits := by decide +kernel

end Troupe.Number
