import Mathlib
import Troupe.Proofs.Number.Operations

/-! # Numbers that are represented exactly

A number with few enough bits is one of a format, if its place is in the range. Such a number is not
changed by rounding. Numbers below half of the least one become zero, and a sign can be put in front
before rounding as well as after it.

* `exists_isRepresented` — few enough bits.
* `RoundsTo.exact` — numbers that rounding does not change.
* `roundsTo_zero` — numbers that vanish.
* `RoundsTo.neg` — the other sign.
-/

namespace Troupe.Number

open Float.Model (UnpackedFloat Format totalExponent)
open Float.Model.UnpackedFloat

variable {format : Format} {sign : Sign} {q : ℚ} {fields other : UnpackedFloat}

/-- The exponent is moved down until the mantissa has all bits, or down to the least one. -/
theorem exists_isRepresented {mantissa : Nat} {exponent : Int}
    (short : mantissa < 2 ^ format.mantissaBits) (least : format.minExponent ≤ exponent)
    (low : exponent ≤ highestExponent format) :
    ∃ fields, IsRepresented format fields ∧ valueOf fields = mantissa * 2 ^ exponent := by
  rcases Nat.eq_zero_or_pos mantissa with rfl | positive
  · exact ⟨.zero .positive, .zero, by simp [valueOf]⟩
  · obtain ⟨shift, bounded, full⟩ : ∃ shift : Nat,
        (mantissa.log2 + shift ≤ format.mantissaBitsWithoutImplicit ∧
          format.minExponent ≤ exponent - shift) ∧
        (mantissa.log2 + shift = format.mantissaBitsWithoutImplicit ∨
          exponent - shift = format.minExponent) := by
      have bits := (Nat.log2_lt positive.ne').mpr short
      rw [Format.mantissaBits] at bits
      refine ⟨min (format.mantissaBitsWithoutImplicit - mantissa.log2)
        (exponent - format.minExponent).toNat, ?_, ?_⟩ <;> omega
    have moved : 0 < mantissa * 2 ^ shift := Nat.mul_pos positive (Nat.two_pow_pos _)
    refine ⟨.finite .positive (mantissa * 2 ^ shift) (exponent - shift) moved,
      .finite ?_ bounded.2 (by omega) (full.imp_left fun top => ?_), ?_⟩
    · calc mantissa * 2 ^ shift < 2 ^ (mantissa.log2 + 1) * 2 ^ shift :=
            Nat.mul_lt_mul_of_pos_right Nat.lt_log2_self (Nat.two_pow_pos _)
        _ = 2 ^ (mantissa.log2 + 1 + shift) := (Nat.pow_add _ _ _).symm
        _ ≤ 2 ^ format.mantissaBits :=
            Nat.pow_le_pow_right (by decide) (by rw [Format.mantissaBits]; omega)
    · rw [← top, Nat.pow_add]
      exact Nat.mul_le_mul_right _ (Nat.log2_self_le positive.ne')
    · rw [valueOf_positive, zpow_sub₀ two_ne_zero, zpow_natCast]
      push_cast
      field_simp

theorem IsRepresented.abs_valueOf_lt (represented : IsRepresented format fields)
    (wide : format.minExponent ≤ highestExponent format) :
    |valueOf fields| < overflowBound format := by
  obtain ⟨factor, power, same, short, _, low⟩ := represented.exists_factor wide .positive
  have whole : |(factor : ℚ)| + 1 ≤ 2 ^ format.mantissaBits := by exact_mod_cast short
  have scale : (0 : ℚ) < 2 ^ highestExponent format := by positivity
  rw [same, abs_signed, abs_mul, abs_of_pos (by positivity : (0 : ℚ) < 2 ^ power), overflowBound_eq]
  calc |(factor : ℚ)| * 2 ^ power ≤ |(factor : ℚ)| * 2 ^ highestExponent format := by
        gcongr
        exact one_le_two
    _ < (2 ^ format.mantissaBits - 1 / 2) * 2 ^ highestExponent format :=
        mul_lt_mul_of_pos_right (by linarith) scale

theorem RoundsTo.signed (rounds : RoundsTo format sign q fields) : Signed sign fields := by
  cases rounds with
  | overflow => exact .infinity
  | nearest _ signed => exact signed

theorem RoundsTo.unpack_pack_eq (rounds : RoundsTo format sign q fields) :
    unpack format (pack format fields) = fields := by
  cases rounds with
  | overflow => exact unpack_packedInfinity format sign
  | nearest _ _ nearest => exact unpack_pack nearest.represented

theorem RoundsTo.isFinite_iff (rounds : RoundsTo format sign q fields) :
    fields.isFinite = true ↔ |q| < overflowBound format := by
  cases rounds with
  | overflow beyond => exact iff_of_false nofun (not_lt.mpr beyond)
  | nearest within _ nearest => exact iff_of_true nearest.represented.isFinite within

/-- A number of the format is the nearest one to itself. -/
theorem RoundsTo.exact (rounds : RoundsTo format sign (valueOf other) fields)
    (represented : IsRepresented format other)
    (wide : format.minExponent ≤ highestExponent format) :
    IsRepresented format fields ∧ valueOf fields = valueOf other := by
  cases rounds with
  | overflow beyond => exact absurd (represented.abs_valueOf_lt wide) (not_lt.mpr beyond)
  | nearest _ _ nearest =>
    have none := nearest.closest other represented
    rw [sub_self, abs_zero] at none
    exact ⟨nearest.represented, sub_eq_zero.mp (abs_nonpos_iff.mp none)⟩

theorem roundsTo_zero (wide : format.minExponent ≤ highestExponent format)
    (small : |q| < 2 ^ (format.minExponent - 1)) : RoundsTo format sign q (.zero sign) := by
  rw [zpow_sub_one₀ two_ne_zero] at small
  have least : (2 : ℚ) ^ format.minExponent ≤ 2 ^ highestExponent format :=
    zpow_le_zpow_right₀ one_le_two wide
  have bits : (1 : ℚ) ≤ 2 ^ format.mantissaBits := one_le_pow₀ one_le_two
  refine .nearest ?_ .zero ⟨.zero, fun other represented => ?_, fun _ _ _ _ => trivial⟩
  · rw [overflowBound_eq]
    have scale : (0 : ℚ) < 2 ^ format.minExponent := by positivity
    nlinarith
  · obtain ⟨factor, power, same, _, low, _⟩ := represented.exists_factor wide .positive
    have none : valueOf (.zero sign) = 0 := rfl
    rw [none, zero_sub, abs_neg]
    rcases eq_or_ne factor 0 with rfl | some
    · simp [same]
    · have place : (2 : ℚ) ^ format.minExponent ≤ 2 ^ power := zpow_le_zpow_right₀ one_le_two low
      have above : (2 : ℚ) ^ power ≤ |valueOf other| := by
        rw [same, abs_signed, abs_mul, abs_of_pos (by positivity : (0 : ℚ) < 2 ^ power)]
        have whole : (1 : ℚ) ≤ |(factor : ℚ)| := by exact_mod_cast Int.one_le_abs some
        exact le_mul_of_one_le_left (by positivity) whole
      have apart := abs_sub_abs_le_abs_sub (valueOf other) q
      linarith

theorem IsRepresented.neg (represented : IsRepresented format fields) :
    IsRepresented format fields.neg := by
  cases represented with
  | zero => exact .zero
  | finite short least low full => exact .finite short least low full

theorem Signed.neg (signed : Signed sign fields) : Signed (-sign) fields.neg := by
  cases signed with
  | infinity => exact .infinity
  | zero => exact .zero
  | finite => exact .finite

theorem IsNearest.neg (nearest : IsNearest format q fields) :
    IsNearest format (-q) fields.neg := by
  have turned (value : ℚ) : |value - -q| = |-value - q| := by
    rw [← abs_neg]
    ring_nf
  refine ⟨nearest.represented.neg, ?_, ?_⟩
  · intro other represented
    rw [turned, turned, valueOf_neg, neg_neg, ← valueOf_neg other]
    exact nearest.closest other.neg represented.neg
  · intro other represented tie differs
    rw [turned, turned, valueOf_neg fields, neg_neg, ← valueOf_neg other] at tie
    have even := nearest.even other.neg represented.neg tie fun same => differs (by
      rw [valueOf_neg fields, ← same, valueOf_neg, neg_neg])
    cases nearest.represented with
    | zero => trivial
    | finite => exact even

theorem RoundsTo.neg (rounds : RoundsTo format sign q fields) :
    RoundsTo format (-sign) (-q) fields.neg := by
  cases rounds with
  | overflow beyond => exact .overflow (by rwa [abs_neg])
  | nearest within signed nearest =>
    exact .nearest (by rwa [abs_neg]) signed.neg nearest.neg

end Troupe.Number
