import Mathlib
import Troupe.Proofs.Decimal.Leading
import Troupe.Proofs.Decimal.Neighbourhood
import Troupe.Proofs.Number.Double

/-! # Numbers that are written and read back

The text of a number is that of a numeral without an exponent: its digits with zeros after them, or
with a point among or before them. Reading takes all of it, and the value is rounded to the number
that was written.

* `plainNumeral` — the numeral that is written.
* `chars_plainNumeral`, `value_plainNumeral` — its text and its value.
* `leadingNumber?_shortestText` — reading undoes writing.
-/

namespace Troupe.Decimal

open Float.Model (UnpackedFloat Format)
open Float.Model.UnpackedFloat
open Troupe.Number
open Troupe.Text (isBlank skipBlanks)

/-! ## The numeral that is written -/

/-- The numeral whose text is plain: the point is after, among or before the digits. -/
def plainNumeral (sign : Sign) (digits : List Char) (exponent : Int) : Numeral :=
  let places := (-exponent).toNat
  let whole := digits.length - places
  if 0 ≤ exponent then
    ⟨(signText sign).head?, digits ++ List.replicate exponent.toNat '0', none, none⟩
  else if places < digits.length then
    ⟨(signText sign).head?, digits.take whole, some (digits.drop whole), none⟩
  else
    ⟨(signText sign).head?, ['0'],
      some (List.replicate (places - digits.length) '0' ++ digits), none⟩

section Plain

variable {sign : Sign} {digits : List Char} {exponent : Int}

theorem chars_plainNumeral :
    (plainNumeral sign digits exponent).chars = signText sign ++ plain digits exponent := by
  have signs : (signText sign).head?.toList = signText sign := by cases sign <;> rfl
  unfold plainNumeral plain
  dsimp only
  split
  case isTrue => simp [Numeral.chars, signs]
  case isFalse => split <;> simp [Numeral.chars, signs]

theorem signOf_plainNumeral : (plainNumeral sign digits exponent).signOf = sign := by
  unfold plainNumeral
  dsimp only
  split
  case isTrue => cases sign <;> rfl
  case isFalse => split <;> cases sign <;> rfl

theorem isDigits_replicate_zero (count : Nat) : IsDigits (List.replicate count '0') := by
  intro c member
  rw [List.eq_of_mem_replicate member]
  decide

theorem IsDigits.append {word word' : List Char} (all : IsDigits word) (all' : IsDigits word') :
    IsDigits (word ++ word') :=
  fun c member => (List.mem_append.mp member).elim (all c) (all' c)

theorem isWellFormed_plainNumeral (all : IsDigits digits) (some : digits ≠ []) :
    (plainNumeral sign digits exponent).IsWellFormed := by
  have isSign : IsSign (signText sign).head? := by cases sign <;> simp [signText, IsSign]
  unfold plainNumeral
  dsimp only
  split
  case isTrue =>
    exact ⟨isSign, all.append (isDigits_replicate_zero _), by simp [IsDigits], by simp [some],
      by simp⟩
  case isFalse =>
    split
    case isTrue =>
      have more : digits.take (digits.length - (-exponent).toNat) ≠ [] :=
        List.ne_nil_of_length_pos (by rw [List.length_take]; omega)
      exact ⟨isSign, fun c member => all c (List.mem_of_mem_take member),
        fun c member => all c (List.mem_of_mem_drop member), .inl more, by simp⟩
    case isFalse =>
      exact ⟨isSign, isDigits_replicate_zero 1, (isDigits_replicate_zero _).append all, by simp,
        by simp⟩

/-- Zeros in front do not count, and zeros or places at the end move the exponent. -/
theorem significand_plainNumeral :
    ((plainNumeral sign digits exponent).significand : ℚ) *
        10 ^ (plainNumeral sign digits exponent).power =
      Nat.ofDigitChars 10 digits 0 * 10 ^ exponent := by
  unfold plainNumeral
  dsimp only
  split
  case isTrue nonneg =>
    have shift : (10 : ℚ) ^ exponent = 10 ^ exponent.toNat := by
      rw [← zpow_natCast, Int.toNat_of_nonneg nonneg]
    simp [Numeral.significand, Numeral.power, Nat.ofDigitChars_append,
      Nat.ofDigitChars_replicate_zero, shift, mul_comm]
  case isFalse negative =>
    split
    case isTrue short =>
      have places : digits.length - (digits.length - (-exponent).toNat) = (-exponent).toNat := by
        omega
      have power : max (-exponent) 0 = -exponent := by omega
      simp [Numeral.significand, Numeral.power, places, power]
    case isFalse long =>
      have places : (-exponent).toNat - digits.length + digits.length = (-exponent).toNat := by
        omega
      have power : max (-exponent) 0 = -exponent := by omega
      simp [Numeral.significand, Numeral.power, places, power, Nat.ofDigitChars_append,
        Nat.ofDigitChars_replicate_zero, Nat.ofDigitChars_cons]

theorem value_plainNumeral :
    (plainNumeral sign digits exponent).value =
      (sign.apply 1 : ℤ) * (Nat.ofDigitChars 10 digits 0 * 10 ^ exponent) := by
  rw [Numeral.value_eq, signOf_plainNumeral, significand_plainNumeral]

end Plain

/-! ## Reading what was written -/

theorem isBlank_of_isDigit {c : Char} (isDigit : c.isDigit = true) : isBlank c = false := by
  simp only [Char.isDigit, Bool.and_eq_true, decide_eq_true_eq] at isDigit
  have low : 48 ≤ c.toNat := UInt32.le_iff_toNat_le.mp isDigit.1
  have high : c.toNat ≤ 57 := UInt32.le_iff_toNat_le.mp isDigit.2
  simp [isBlank, Troupe.Text.blankRanges]
  omega

/-- A numeral starts with its sign, a digit or the point, and none of them is blank. -/
theorem Numeral.skipBlanks_chars {n : Numeral} (wellFormed : n.IsWellFormed) :
    skipBlanks n.chars = n.chars := by
  obtain ⟨isSign, all, _, some, _⟩ := wellFormed
  obtain ⟨sign, whole, fraction, exponent⟩ := n
  rw [Numeral.chars_eq]
  cases sign with
  | some c =>
    rcases isSign c rfl with rfl | rfl <;> exact List.dropWhile_cons_of_neg (by decide)
  | none =>
    cases whole with
    | cons d whole =>
      refine List.dropWhile_cons_of_neg ?_
      rw [isBlank_of_isDigit (all d List.mem_cons_self)]
      exact Bool.false_ne_true
    | nil =>
      cases fraction with
      | none => simp at some
      | some digits => exact List.dropWhile_cons_of_neg (by decide)

/-- A decimal that is rounded to a number is read as that number. -/
theorem leadingNumber?_plain {x : Float} {sign : Sign} {digits : Nat} {exponent : Int}
    (finite : x.isFinite = true)
    (rounds : RoundsTo .binary64 sign ((sign.apply 1 : ℤ) * (digits * 10 ^ exponent))
      (fields64 x)) :
    leadingNumber? (String.ofList (signText sign ++ plain (Nat.toDigits 10 digits) exponent)) =
      some x := by
  have wellFormed : (plainNumeral sign (Nat.toDigits 10 digits) exponent).IsWellFormed :=
    isWellFormed_plainNumeral
      (fun c member => Nat.isDigit_of_mem_toDigits (by decide) (by decide) member)
      Nat.toDigits_ne_nil
  have reads := (plainNumeral sign (Nat.toDigits 10 digits) exponent).roundsTo_toDouble
  rw [signOf_plainNumeral, value_plainNumeral, Nat.ofDigitChars_ten_toDigits] at reads
  have same : (plainNumeral sign (Nat.toDigits 10 digits) exponent).toDouble = x :=
    (eq_of_fields64 finite (rounds.unique wide_binary64 reads)).symm
  rw [leadingNumber?, String.toList_ofList, ← chars_plainNumeral,
    Numeral.skipBlanks_chars wellFormed, Numeral.scan_chars wellFormed]
  dsimp only
  rw [same, if_pos finite]

/-- Reading undoes writing, for every finite number. -/
theorem leadingNumber?_shortestText (x : Float) :
    leadingNumber? (shortestText x) = if x.isFinite then some x else none := by
  have finite : x.isFinite = (fields64 x).isFinite := rfl
  unfold shortestText shortestChars
  cases shown : fields64 x with
  | notANumber =>
    rw [finite, shown]
    change leadingNumber? (String.ofList ['N', 'a', 'N']) = none
    decide +kernel
  | infinity sign =>
    rw [finite, shown]
    change leadingNumber? (String.ofList (signText sign ++ ['i', 'n', 'f'])) = none
    cases sign <;> decide +kernel
  | zero sign =>
    have finite : x.isFinite = true := finite.trans (shown ▸ rfl)
    have rounds : RoundsTo .binary64 sign ((sign.apply 1 : ℤ) * (((0 : Nat) : ℚ) * 10 ^ (0 : ℤ)))
        (fields64 x) := by
      rw [shown, Nat.cast_zero, zero_mul, mul_zero]
      exact roundsTo_zero wide_binary64 (by rw [abs_zero]; positivity)
    have text : plain (Nat.toDigits 10 0) 0 = ['0'] := by decide
    have reads := leadingNumber?_plain finite rounds
    rw [text] at reads
    rw [if_pos finite]
    exact reads
  | finite sign mantissa exponent positive =>
    have finite : x.isFinite = true := finite.trans (shown ▸ rfl)
    have represented := isRepresented_of_isFinite64 finite
    rw [shown] at represented
    have least : -1074 ≤ exponent := by
      cases represented with
      | finite _ least => exact least
    have encloses := Neighbourhood.encloses_shortest positive least
    rw [if_pos finite]
    dsimp only
    generalize (Neighbourhood.of mantissa exponent).shortest = decimal at encloses ⊢
    have rounds := Neighbourhood.roundsTo_of_encloses represented encloses
    rw [← shown] at rounds
    obtain ⟨digits, power⟩ := decimal
    exact leadingNumber?_plain finite rounds

end Troupe.Decimal
