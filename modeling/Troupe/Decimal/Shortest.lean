import Troupe.Number.Conversion

/-! # The shortest decimal of a number

A finite double-precision number is the centre of an interval of reals that all round to
it. Its shortest decimal is the point of the coarsest decimal grid that lies in that
interval: the grids `10 ^ k` are tried from the coarsest on, and on each grid only the
two neighbours of the number can lie in the interval. Of two such neighbours the nearer
is taken, and the larger one when both are equally near.

* `Neighbourhood` — the interval, as whole multiples of one power of two.
* `Neighbourhood.onGrid?` — the point of one grid in the interval.
* `Neighbourhood.shortest` — significand and exponent of the shortest decimal.
* `plain` — digits written with a point and without an exponent.
* `shortestText` — the text of a number.
-/

namespace Troupe.Decimal

open Float.Model (UnpackedFloat)
open Troupe.Number (fields64 powerOfTwo powerOfTen)

/-! ## The interval of a number -/

/-- The reals that round to one number: those from `low` to `high` times `2 ^ scale`,
    the ends included when `closed`. The number itself is `centre * 2 ^ scale`. -/
structure Neighbourhood where
  low : Nat
  centre : Nat
  high : Nat
  scale : Int
  closed : Bool
deriving Repr, DecidableEq

/-- The interval around `mantissa * 2 ^ exponent`. Its ends are halfway to the next
    numbers; below the least mantissa of a binade the next number is only half as far.
    Halfway points go to the even mantissa. -/
def Neighbourhood.of (mantissa : Nat) (exponent : Int) : Neighbourhood where
  low := 4 * mantissa - if mantissa = powerOfTwo 52 ∧ -1074 < exponent then 1 else 2
  centre := 4 * mantissa
  high := 4 * mantissa + 2
  scale := exponent - 2
  closed := mantissa % 2 = 0

/-! ## Decimal grids -/

/-- The factor that, with `gridDivisor`, turns a multiple of `2 ^ scale` into a multiple
    of `10 ^ k`. -/
def Neighbourhood.gridFactor (n : Neighbourhood) (k : Int) : Nat :=
  powerOfTwo n.scale.toNat * powerOfTen (-k).toNat

def Neighbourhood.gridDivisor (n : Neighbourhood) (k : Int) : Nat :=
  powerOfTwo (-n.scale).toNat * powerOfTen k.toNat

/-- Whether `digits * 10 ^ k` lies in the interval. -/
def Neighbourhood.contains (n : Neighbourhood) (digits : Nat) (k : Int) : Bool :=
  let point := digits * n.gridDivisor k
  let low := n.low * n.gridFactor k
  let high := n.high * n.gridFactor k
  if n.closed then low ≤ point && point ≤ high else low < point && point < high

/-- The point of the grid `10 ^ k` that lies in the interval, the nearer of two and the
    larger of two equally near. -/
def Neighbourhood.onGrid? (n : Neighbourhood) (k : Int) : Option Nat :=
  let number := n.centre * n.gridFactor k
  let divisor := n.gridDivisor k
  let below := number / divisor
  let above := below + 1
  match n.contains below k, n.contains above k with
  | true, true => if 2 * (number % divisor) < divisor then some below else some above
  | true, false => some below
  | false, true => some above
  | false, false => none

/-- The finest grid that is ever needed: every number is a multiple of `10 ^ (-1080)`. -/
def finestGrid : Int := -1080

/-- How many grids lie between the finest one and `10 ^ 309`, which exceeds every finite
    number. -/
def gridCount : Nat := 1389

/-- The coarsest point of the interval among the grids `10 ^ (finestGrid + i)`, `i` at
    most the given count, as significand and exponent. -/
def Neighbourhood.coarsest (n : Neighbourhood) : Nat → Nat × Int
  | 0 => (n.centre * n.gridFactor finestGrid / n.gridDivisor finestGrid, finestGrid)
  | i + 1 =>
    let k := finestGrid + (i + 1 : Nat)
    match n.onGrid? k with
    | some digits => (digits, k)
    | none => n.coarsest i

/-- Significand and exponent of the shortest decimal in the interval. -/
def Neighbourhood.shortest (n : Neighbourhood) : Nat × Int :=
  n.coarsest gridCount

/-! ## Text -/

/-- `digits` times ten to the `exponent`, written with a point where one is needed and
    never with an exponent. -/
def plain (digits : List Char) (exponent : Int) : List Char :=
  if 0 ≤ exponent then digits ++ List.replicate exponent.toNat '0'
  else
    let places := (-exponent).toNat
    if places < digits.length then
      let whole := digits.length - places
      digits.take whole ++ '.' :: digits.drop whole
    else '0' :: '.' :: (List.replicate (places - digits.length) '0' ++ digits)

example : plain ['1', '2'] 1 = ['1', '2', '0'] ∧ plain ['1', '2'] (-1) = ['1', '.', '2'] := by
  decide

example : plain ['7'] (-3) = ['0', '.', '0', '0', '7'] := by decide

def signText : UnpackedFloat.Sign → List Char
  | .negative => ['-']
  | .positive => []

/-- A number in the fewest digits that read back as the same number, as characters. -/
def shortestChars (x : Float) : List Char :=
  match fields64 x with
  | .notANumber => ['N', 'a', 'N']
  | .infinity sign => signText sign ++ ['i', 'n', 'f']
  | .zero sign => signText sign ++ ['0']
  | .finite sign mantissa exponent _ =>
    let (digits, power) := (Neighbourhood.of mantissa exponent).shortest
    signText sign ++ plain (Nat.toDigits 10 digits) power

/-- A number in the fewest digits that read back as the same number. -/
def shortestText (x : Float) : String :=
  String.ofList (shortestChars x)

example : shortestChars 0.1 = ['0', '.', '1'] ∧ shortestChars (-0.0) = ['-', '0'] := by
  decide +kernel

example : shortestChars 5e-1 = ['0', '.', '5'] ∧ shortestChars 1e3 = ['1', '0', '0', '0'] := by
  decide +kernel

end Troupe.Decimal
