import Mathlib
import Troupe.Proofs.Number.Exact
import Troupe.Decimal.Numeral

/-! # Decimal numbers in double precision

A whole number times a power of ten is correctly rounded. Powers of ten far beyond the range of the
format are not computed, and neither are those far below it. When the whole number and the power of
ten are represented exactly, their product or quotient is rounded once. Otherwise, both are computed
with as many digits as they have.

* `roundsTo_scientific` — any whole number times any power of ten.
* `roundsTo_mul_powerOfTen`, `roundsTo_div_powerOfTen` — the short way for small numbers.
* `roundsTo_ofScientific` — both ways.
-/

namespace Troupe.Decimal

open Float.Model (UnpackedFloat Format)
open Float.Model.UnpackedFloat
open Troupe.Number

/-! ## The range of double precision -/

theorem wide_binary64 : Format.binary64.minExponent ≤ highestExponent .binary64 := by decide

theorem overflowBound_binary64 : overflowBound .binary64 = 2 ^ 1024 - 2 ^ 970 := by
  have highest : highestExponent .binary64 - 1 = (970 : Nat) := by decide
  have bits : Format.binary64.mantissaBits + 1 = 54 := rfl
  rw [overflowBound, highest, bits, zpow_natCast, sub_mul, one_mul, ← pow_add]

section Operations

variable {mantissa significand : Nat} {exponent power : Int} {positive : 0 < mantissa}
  {positive' : 0 < significand}

theorem roundsTo_product (long : 2 ^ 52 ≤ mantissa * significand) :
    RoundsTo .binary64 .positive ((mantissa * 2 ^ exponent) * (significand * 2 ^ power))
      (unpack .binary64 (pack .binary64 (mul .binary64
        (.finite .positive mantissa exponent positive)
        (.finite .positive significand power positive')))) := by
  rw [← @valueOf_positive mantissa exponent positive,
    ← @valueOf_positive significand power positive']
  change RoundsTo _ (.positive * .positive) _ _
  exact roundsTo_mul wide_binary64 (le_placeIn_of_long long _)

theorem roundsTo_quotient :
    RoundsTo .binary64 .positive ((mantissa * 2 ^ exponent) / (significand * 2 ^ power))
      (unpack .binary64 (pack .binary64 (div .binary64
        (.finite .positive mantissa exponent positive)
        (.finite .positive significand power positive')))) := by
  rw [← @valueOf_positive mantissa exponent positive,
    ← @valueOf_positive significand power positive']
  change RoundsTo _ (.positive / .positive) _ _
  exact roundsTo_div wide_binary64

end Operations

/-! ## Any whole number times any power of ten -/

theorem roundsTo_overflowing {m : Nat} {e : Int} (some : m ≠ 0) (large : e > 2 ^ 11) :
    RoundsTo .binary64 .positive (m * 10 ^ e) (.infinity .positive) := by
  refine .overflow ?_
  have least : (1 : ℚ) ≤ m := by exact_mod_cast Nat.one_le_iff_ne_zero.mpr some
  rw [overflowBound_binary64, abs_of_nonneg (by positivity)]
  calc (2 : ℚ) ^ 1024 - 2 ^ 970 ≤ 2 ^ 1024 := sub_le_self _ (by positivity)
    _ ≤ 10 ^ 1024 := pow_le_pow_left₀ (by norm_num) (by norm_num) _
    _ ≤ 10 ^ e := by
        rw [← zpow_natCast]
        exact zpow_le_zpow_right₀ (by norm_num) (by push_cast; omega)
    _ ≤ m * 10 ^ e := le_mul_of_one_le_left (by positivity) least

theorem roundsTo_vanishing {m : Nat} {e : Int} (small : e < -(2 ^ 11 + m.log2)) :
    RoundsTo .binary64 .positive (m * 10 ^ e) (.zero .positive) := by
  refine roundsTo_zero wide_binary64 ?_
  have least : Format.binary64.minExponent = -1074 := by decide
  have bits : (m : ℚ) < 2 ^ (m.log2 + 1 : ℤ) := by
    exact_mod_cast (Nat.lt_log2_self : m < 2 ^ (m.log2 + 1))
  -- the exponent is negative, so without its fives a power of ten is greater
  have power : (10 : ℚ) ^ e ≤ 2 ^ e := by
    have fives : (5 : ℚ) ^ e ≤ 1 := zpow_le_one_of_nonpos₀ (by norm_num) (by omega)
    calc (10 : ℚ) ^ e = 2 ^ e * 5 ^ e := by rw [← mul_zpow]; norm_num
      _ ≤ 2 ^ e := mul_le_of_le_one_right (by positivity) fives
  rw [least, abs_of_nonneg (by positivity)]
  calc (m : ℚ) * 10 ^ e ≤ m * 2 ^ e := by gcongr
    _ < 2 ^ (m.log2 + 1 : ℤ) * 2 ^ e := by gcongr
    _ = 2 ^ (m.log2 + 1 + e : ℤ) := (zpow_add₀ two_ne_zero _ _).symm
    _ ≤ 2 ^ (-1074 - 1 : ℤ) := zpow_le_zpow_right₀ one_le_two (by omega)

/-- A product of numbers with all their digits, the first one with bits to spare. -/
theorem scientific_eq_product (m : Nat) {e : Int} (nonneg : 0 ≤ e) :
    (m : ℚ) * (10 : ℚ) ^ e =
      ((m <<< 53 : Nat) * 2 ^ (-53 : ℤ)) * ((10 ^ e.toNat : Nat) * 2 ^ (0 : ℤ)) := by
  have power : (10 : ℚ) ^ e = 10 ^ e.toNat := by
    rw [← zpow_natCast, Int.toNat_of_nonneg nonneg]
  rw [power, Nat.shiftLeft_eq, zpow_neg, zpow_zero]
  push_cast
  field_simp

theorem scientific_eq_quotient (m : Nat) {e : Int} (negative : e < 0) :
    (m : ℚ) * (10 : ℚ) ^ e = (m * 2 ^ (0 : ℤ)) / ((10 ^ (-e).toNat : Nat) * 2 ^ (0 : ℤ)) := by
  have power : (10 : ℚ) ^ e = (10 ^ (-e).toNat)⁻¹ := by
    rw [← zpow_natCast, ← zpow_neg, Int.toNat_of_nonneg (by omega), neg_neg]
  rw [power, zpow_zero]
  push_cast
  field_simp

theorem roundsTo_scientific (m : Nat) (e : Int) :
    RoundsTo .binary64 .positive (m * 10 ^ e)
      (unpack .binary64 (pack .binary64 (UnpackedFloat.ofScientific .binary64 m e))) := by
  rw [UnpackedFloat.ofScientific]
  split
  case isTrue none =>
    rw [none, Nat.cast_zero, zero_mul, unpack_pack .zero]
    exact roundsTo_zero wide_binary64 (by rw [abs_zero]; positivity)
  case isFalse some =>
    split
    case isTrue large =>
      rw [pack, unpack_packedInfinity]
      exact roundsTo_overflowing some large
    case isFalse =>
      split
      case isTrue small =>
        rw [unpack_pack .zero]
        exact roundsTo_vanishing small
      case isFalse =>
        split
        case isTrue nonneg =>
          have long : 2 ^ 52 ≤ (m <<< 53) * 10 ^ e.toNat := by
            rw [Nat.shiftLeft_eq]
            have power : 0 < 10 ^ e.toNat := Nat.pow_pos (by decide)
            nlinarith [Nat.pos_of_ne_zero some]
          rw [scientific_eq_product m nonneg]
          exact roundsTo_product long
        case isFalse negative =>
          rw [scientific_eq_quotient m (not_le.mp negative)]
          exact roundsTo_quotient

/-! ## Small numbers -/

/-- A positive whole number with few enough bits, up to a power of two, has all bits in use. -/
theorem exists_full_of_roundsTo {k : Nat} {n : Nat} {fields : UnpackedFloat} (some : 0 < k)
    (short : k < 2 ^ 53) (low : n ≤ 971)
    (rounds : RoundsTo .binary64 .positive ((k * 2 ^ n : Nat) : ℚ) fields) :
    ∃ (mantissa : Nat) (exponent : Int) (positive : 0 < mantissa),
      fields = .finite .positive mantissa exponent positive ∧ 2 ^ 52 ≤ mantissa ∧
        (mantissa : ℚ) * 2 ^ exponent = (k * 2 ^ n : Nat) := by
  have least : Format.binary64.minExponent = -1074 := by decide
  have highest : highestExponent .binary64 = 971 := by decide
  obtain ⟨other, represented, same⟩ :=
    @exists_isRepresented .binary64 k n short (by omega) (by omega)
  have whole : valueOf other = (k * 2 ^ n : Nat) := by
    rw [same, zpow_natCast]
    push_cast
    rfl
  have one_le : (1 : ℚ) ≤ (k * 2 ^ n : Nat) := by
    exact_mod_cast Nat.mul_pos some (Nat.two_pow_pos n)
  have signed := rounds.signed
  rw [← whole] at rounds one_le ⊢
  obtain ⟨represented, same⟩ := rounds.exact represented wide_binary64
  rw [← same] at one_le ⊢
  cases represented with
  | zero => exact absurd one_le (by norm_num [valueOf])
  | @finite sign mantissa exponent positive short' least' low' full =>
    cases signed
    refine ⟨mantissa, exponent, positive, rfl, full.resolve_right fun least'' => ?_, rfl⟩
    -- with the least exponent the number would be below one
    rw [valueOf_positive, least'', least] at one_le
    have bits : (mantissa : ℚ) < 2 ^ (53 : ℤ) := by exact_mod_cast short'
    have below : (mantissa : ℚ) * 2 ^ (-1074 : ℤ) < 1 := by
      calc (mantissa : ℚ) * 2 ^ (-1074 : ℤ) < 2 ^ (53 : ℤ) * 2 ^ (-1074 : ℤ) := by gcongr
        _ = 2 ^ (53 + -1074 : ℤ) := (zpow_add₀ two_ne_zero _ _).symm
        _ ≤ 1 := zpow_le_one_of_nonpos₀ one_le_two (by norm_num)
    exact absurd one_le (not_le.mpr below)

theorem fields_toFloat {m : Nat} (some : 0 < m) (short : m < 2 ^ 53) :
    ∃ (mantissa : Nat) (exponent : Int) (positive : 0 < mantissa),
      fields64 m.toUInt64.toFloat = .finite .positive mantissa exponent positive ∧
        2 ^ 52 ≤ mantissa ∧ (mantissa : ℚ) * 2 ^ exponent = m := by
  have word : m.toUInt64.toNat = m := by
    rw [Nat.toUInt64, UInt64.toNat_ofNat', Nat.mod_eq_of_lt (by omega)]
  have above : compare (m : ℤ) 0 = .gt := Int.compare_eq_gt.mpr (by omega)
  have shown : fields64 m.toUInt64.toFloat =
      unpack .binary64 (pack .binary64 (UnpackedFloat.round .binary64 .positive m 0)) := by
    change unpack .binary64 (pack .binary64 (UnpackedFloat.ofNat .binary64 m.toUInt64.toNat)) = _
    rw [word, UnpackedFloat.ofNat, UnpackedFloat.ofInt, UnpackedFloat.normalize, above]
    rfl
  have rounds := roundsTo_round wide_binary64 .positive some 0
  rw [← shown] at rounds
  simpa using exists_full_of_roundsTo (n := 0) some short (by decide)
    (by simpa [Sign.apply] using rounds)

/-- The powers of ten that are looked up. -/
theorem toModel_powersOfTen : ∀ e : Fin Float.exactlyRepresentablePowersOfTen.size,
    Float.exactlyRepresentablePowersOfTen[e].toModel =
      Float.Model.ofScientific (10 ^ e.val) 0 := by
  decide +kernel

theorem fields_powerOfTen {e : Nat} (small : e < Float.exactlyRepresentablePowersOfTen.size) :
    ∃ (mantissa : Nat) (exponent : Int) (positive : 0 < mantissa),
      fields64 (Float.exactlyRepresentablePowersOfTen[e]) =
        .finite .positive mantissa exponent positive ∧ 2 ^ 52 ≤ mantissa ∧
          (mantissa : ℚ) * 2 ^ exponent = (10 ^ e : Nat) := by
  have shown : fields64 (Float.exactlyRepresentablePowersOfTen[e]) =
      unpack .binary64 (pack .binary64 (UnpackedFloat.ofScientific .binary64 (10 ^ e) 0)) := by
    have same : Float.exactlyRepresentablePowersOfTen[e].toModel = _ :=
      toModel_powersOfTen ⟨e, small⟩
    rw [fields64, same, Float.Model.ofScientific]
    rfl
  have rounds := roundsTo_scientific (10 ^ e) 0
  rw [zpow_zero, mul_one, ← shown] at rounds
  have few : e < 23 := small
  -- only the fives take bits of the mantissa
  have split : 10 ^ e = 5 ^ e * 2 ^ e := by rw [← Nat.mul_pow]
  have short : 5 ^ e < 2 ^ 53 :=
    Nat.lt_of_le_of_lt (Nat.pow_le_pow_right (by decide) (Nat.le_of_lt_succ few)) (by decide)
  rw [split] at rounds ⊢
  exact exists_full_of_roundsTo (Nat.pow_pos (by decide)) short (by omega) rounds

theorem roundsTo_packedZero (q : ℚ) :
    RoundsTo .binary64 .positive (((0 : Nat) : ℚ) * q)
      (unpack .binary64 (pack .binary64 (.zero .positive))) := by
  rw [unpack_pack .zero, Nat.cast_zero, zero_mul]
  exact roundsTo_zero wide_binary64 (by rw [abs_zero]; positivity)

section Small

variable {m e : Nat} (short : m < 2 ^ 53) (listed : e < Float.exactlyRepresentablePowersOfTen.size)

include short

theorem roundsTo_mul_powerOfTen :
    RoundsTo .binary64 .positive (m * 10 ^ (e : ℤ))
      (fields64 (m.toUInt64.toFloat * Float.exactlyRepresentablePowersOfTen[e])) := by
  change RoundsTo _ _ _
    (unpack .binary64 (pack .binary64 (mul .binary64 (fields64 _) (fields64 _))))
  obtain ⟨significand, power, positive', shown', _, same'⟩ := fields_powerOfTen listed
  rw [shown']
  rcases Nat.eq_zero_or_pos m with rfl | some
  · exact roundsTo_packedZero _
  · obtain ⟨mantissa, exponent, positive, shown, full, same⟩ := fields_toFloat some short
    have exact : (m : ℚ) * 10 ^ (e : ℤ) =
        (mantissa * 2 ^ exponent) * (significand * 2 ^ power) := by
      rw [same, same', zpow_natCast, Nat.cast_pow, Nat.cast_ofNat]
    rw [shown, exact]
    exact roundsTo_product (Nat.le_trans full (Nat.le_mul_of_pos_right _ positive'))

theorem roundsTo_div_powerOfTen :
    RoundsTo .binary64 .positive (m * 10 ^ (-e : ℤ))
      (fields64 (m.toUInt64.toFloat / Float.exactlyRepresentablePowersOfTen[e])) := by
  change RoundsTo _ _ _
    (unpack .binary64 (pack .binary64 (div .binary64 (fields64 _) (fields64 _))))
  obtain ⟨significand, power, positive', shown', _, same'⟩ := fields_powerOfTen listed
  rw [shown']
  rcases Nat.eq_zero_or_pos m with rfl | some
  · exact roundsTo_packedZero _
  · obtain ⟨mantissa, exponent, positive, shown, _, same⟩ := fields_toFloat some short
    have exact : (m : ℚ) * 10 ^ (-e : ℤ) =
        (mantissa * 2 ^ exponent) / (significand * 2 ^ power) := by
      rw [same, same', zpow_neg, zpow_natCast, div_eq_mul_inv, Nat.cast_pow, Nat.cast_ofNat]
    rw [shown, exact]
    exact roundsTo_quotient

end Small

theorem roundsTo_ofScientific (m : Nat) (negative : Bool) (e : Nat) :
    RoundsTo .binary64 .positive (m * 10 ^ (if negative then -e else e : ℤ))
      (fields64 (Float.ofScientific m negative e)) := by
  by_cases small : m < 2 ^ 53 ∧ e ≤ 22
  · have listed : e < Float.exactlyRepresentablePowersOfTen.size := Nat.lt_succ_of_le small.2
    have fast : Float.ofScientific m negative e =
        if negative then m.toUInt64.toFloat / Float.exactlyRepresentablePowersOfTen[e]
        else m.toUInt64.toFloat * Float.exactlyRepresentablePowersOfTen[e] := dif_pos small
    rw [fast]
    cases negative with
    | false => exact roundsTo_mul_powerOfTen small.1 listed
    | true => exact roundsTo_div_powerOfTen small.1 listed
  · have slow : fields64 (Float.ofScientific m negative e) =
        unpack .binary64 (pack .binary64
          (UnpackedFloat.ofScientific .binary64 m (if negative then -e else e))) := by
      rw [Float.ofScientific, dif_neg small]
      cases negative with
      | false => rfl
      | true =>
        simp only [if_true, Int.negOfNat_eq]
        rfl
    rw [slow]
    exact roundsTo_scientific m _

end Troupe.Decimal
