import Troupe.Text.Blank

/-! # Decimal numerals at the start of a text

A numeral is an optional sign, digits with at most one point and at least one digit on
either side of it, and an optional exponent. `Numeral.scan` reads the longest numeral a
text starts with and hands back the rest; `Numeral.chars` is the text of a numeral, so
`scan` splits a text into the one and the other.

* `Numeral` — the parts of a numeral.
* `Numeral.scan` — the longest numeral at the start of a text.
* `Numeral.toDouble`, `Numeral.toSingle` — its value, rounded once.
* `leadingNumber?` — the value a text field stands for.
-/

namespace Troupe.Decimal

open Troupe.Text (skipBlanks)

/-! ## Numerals -/

/-- The exponent part of a numeral: its letter, its sign and its digits. -/
structure Exponent where
  mark : Char
  sign : Option Char
  digits : List Char
deriving Repr, DecidableEq

/-- A decimal numeral as written. A point with no digits after it is an empty
    `fraction`; a numeral without a point has none. -/
structure Numeral where
  sign : Option Char
  whole : List Char
  fraction : Option (List Char)
  exponent : Option Exponent
deriving Repr, DecidableEq

def Exponent.chars (e : Exponent) : List Char :=
  e.mark :: (e.sign.toList ++ e.digits)

def Numeral.chars (n : Numeral) : List Char :=
  n.sign.toList ++ n.whole
    ++ (match n.fraction with
        | some digits => '.' :: digits
        | none => [])
    ++ (match n.exponent with
        | some e => e.chars
        | none => [])

/-! ## Reading -/

def scanSign : List Char → Option Char × List Char
  | '+' :: rest => (some '+', rest)
  | '-' :: rest => (some '-', rest)
  | text => (none, text)

/-- The longest run of digits, possibly empty. -/
def scanDigits (text : List Char) : List Char × List Char :=
  text.span Char.isDigit

def scanFraction : List Char → Option (List Char) × List Char
  | '.' :: rest =>
    let (digits, rest) := scanDigits rest
    (some digits, rest)
  | text => (none, text)

def isExponentMark (c : Char) : Bool :=
  c == 'e' || c == 'E'

/-- An optional exponent, given back whole when no digit follows its mark. -/
def scanExponent : List Char → Option Exponent × List Char
  | [] => (none, [])
  | mark :: tail =>
    if isExponentMark mark then
      let (sign, afterSign) := scanSign tail
      let (digits, rest) := scanDigits afterSign
      if digits.isEmpty then (none, mark :: tail) else (some ⟨mark, sign, digits⟩, rest)
    else (none, mark :: tail)

/-- The longest numeral at the start of a text, and the rest of the text. -/
def Numeral.scan (text : List Char) : Option (Numeral × List Char) :=
  let (sign, afterSign) := scanSign text
  let (whole, afterWhole) := scanDigits afterSign
  let (fraction, afterFraction) := scanFraction afterWhole
  if whole.isEmpty && (fraction.getD []).isEmpty then none
  else
    let (exponent, rest) := scanExponent afterFraction
    some (⟨sign, whole, fraction, exponent⟩, rest)

example : (Numeral.scan ['1', '2', '.', 'p', 'x']).map (·.2) = some ['p', 'x'] := by decide

example : (Numeral.scan ['-', '.', '5', 'e', '+']).map (·.2) = some ['e', '+'] := by decide

example : Numeral.scan ['-', '.'] = none := by decide

/-! ## Values -/

def Exponent.value (e : Exponent) : Int :=
  let magnitude : Int := Nat.ofDigitChars 10 e.digits 0
  if e.sign = some '-' then -magnitude else magnitude

def Numeral.isNegative (n : Numeral) : Bool :=
  n.sign = some '-'

def Numeral.significand (n : Numeral) : Nat :=
  Nat.ofDigitChars 10 (n.whole ++ n.fraction.getD []) 0

def Numeral.power (n : Numeral) : Int :=
  (n.exponent.map Exponent.value).getD 0 - (n.fraction.getD []).length

def Numeral.toDouble (n : Numeral) : Float :=
  let magnitude := Float.ofScientific n.significand (n.power < 0) n.power.natAbs
  if n.isNegative then -magnitude else magnitude

def Numeral.toSingle (n : Numeral) : Float32 :=
  let magnitude := Float32.ofScientific n.significand (n.power < 0) n.power.natAbs
  if n.isNegative then -magnitude else magnitude

/-- The value of the numeral that a text starts with after any blanks, or nothing when
    there is none or it exceeds every finite number. -/
def leadingNumber? (text : String) : Option Float :=
  match Numeral.scan (skipBlanks text.toList) with
  | none => none
  | some (numeral, _) =>
    let value := numeral.toDouble
    if value.isFinite then some value else none

end Troupe.Decimal
