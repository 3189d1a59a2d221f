import Troupe.Number.Quotient
import Troupe.Decimal.Shortest

/-! # Numbers with a fixed count of places

`fixedText places x` writes `x` with `places` digits after the point. The exact value is
rounded once, a half going to the even digit, and the sign stays also on a value that
rounds to zero.
-/

namespace Troupe.Decimal

open Troupe.Number (fields64 nearestQuotient powerOfTwo powerOfTen)

/-- `mantissa * 2 ^ exponent` as the nearest multiple of `10 ^ (-places)`. -/
def roundedUnits (places mantissa : Nat) (exponent : Int) : Nat :=
  nearestQuotient (mantissa * powerOfTwo exponent.toNat * powerOfTen places)
    (powerOfTwo (-exponent).toNat)

/-- A count of units of `10 ^ (-places)`, with exactly `places` digits after the point. -/
def fixedDigits (places units : Nat) : List Char :=
  let whole := Nat.toDigits 10 (units / powerOfTen places)
  if places = 0 then whole
  else
    let fraction := Nat.toDigits 10 (units % powerOfTen places)
    whole ++ '.' :: (List.replicate (places - fraction.length) '0' ++ fraction)

/-- A number with exactly `places` digits after the point. -/
def fixedText (places : Nat) (x : Float) : String :=
  String.ofList <|
    match fields64 x with
    | .notANumber => ['N', 'a', 'N']
    | .infinity sign => signText sign ++ ['i', 'n', 'f']
    | .zero sign => signText sign ++ fixedDigits places 0
    | .finite sign mantissa exponent _ =>
      signText sign ++ fixedDigits places (roundedUnits places mantissa exponent)

end Troupe.Decimal
