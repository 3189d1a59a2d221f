import Mathlib
import Troupe.Proofs.Number.Rounding

/-! # The numbers of a format

A format has zeros, infinities, and the finite numbers with so many bits whose exponents are in its
range. Each of these has one representation, with all bits in use unless its exponent is the least
there is, and packing does not change it. What has a greater exponent becomes infinite.

* `IsRepresented` — the zeros and finite numbers of a format.
* `unpack_pack` — packing keeps them.
* `unpack_pack_of_beyond` — packing what has too great an exponent.
* `isRepresented_unpack` — no other finite number comes out of bits.
* `pack_unpack` — its bits are those that it is packed into.
-/

namespace Troupe.Number

open Float.Model (UnpackedFloat Format)
open Float.Model.UnpackedFloat

/-- The exponent of the largest finite numbers. -/
def highestExponent (format : Format) : Int :=
  format.exponentBias - format.mantissaBitsWithoutImplicit

/-- The representation of a zero or a finite number. -/
inductive IsRepresented (format : Format) : UnpackedFloat → Prop
  | zero {sign : Sign} : IsRepresented format (.zero sign)
  | finite {sign : Sign} {mantissa : Nat} {exponent : Int} {positive : 0 < mantissa}
      (short : mantissa < 2 ^ format.mantissaBits) (least : format.minExponent ≤ exponent)
      (low : exponent ≤ highestExponent format)
      (full : 2 ^ format.mantissaBitsWithoutImplicit ≤ mantissa ∨ exponent = format.minExponent) :
      IsRepresented format (.finite sign mantissa exponent positive)

variable {format : Format} {fields : UnpackedFloat} {sign : Sign} {mantissa : Nat} {exponent : Int}
  {positive : 0 < mantissa}

theorem IsRepresented.isFinite (represented : IsRepresented format fields) :
    fields.isFinite = true := by
  cases represented <;> rfl

/-! ## The range of exponents -/

theorem minExponent_eq (format : Format) :
    format.minExponent = 1 - format.exponentBias - format.mantissaBitsWithoutImplicit := by
  rw [Format.minExponent, Format.mantissaBits, Format.exponentBias,
    Nat.cast_sub (Nat.two_pow_pos _)]
  push_cast
  ring

theorem two_pow_exponentBits (format : Format) :
    2 ^ format.exponentBits = 2 * format.exponentBias + 2 := by
  have bits : format.exponentBits = format.exponentBits - 1 + 1 :=
    (Nat.sub_add_cancel format.he).symm
  have some : 0 < 2 ^ (format.exponentBits - 1) := Nat.two_pow_pos _
  rw [bits, Nat.pow_succ, Format.exponentBias]
  omega

theorem two_pow_mantissaBits (format : Format) :
    2 ^ format.mantissaBits = 2 * 2 ^ format.mantissaBitsWithoutImplicit := by
  rw [Format.mantissaBits, Nat.pow_add, Nat.pow_one]

/-! ## Packing -/

theorem toNat_neg_one (bits : Nat) : (-1#(bits)).toNat = 2 ^ bits - 1 := by
  rw [BitVec.neg_one_eq_allOnes, BitVec.toNat_allOnes]

/-- The leading bit is left out of what is packed, and put back. -/
theorem toNat_append_ofNat {bits : Nat} (full : 2 ^ bits ≤ mantissa)
    (short : mantissa < 2 * 2 ^ bits) :
    (1#1 ++ BitVec.ofNat bits mantissa).toNat = mantissa := by
  rw [BitVec.toNat_append, ← Nat.shiftLeft_add_eq_or_of_lt (BitVec.isLt _), BitVec.toNat_ofNat,
    BitVec.toNat_ofNat, Nat.shiftLeft_eq]
  have split := Nat.div_add_mod mantissa (2 ^ bits)
  rw [Nat.div_eq_of_lt_le (k := 1) (by omega) (by omega)] at split
  omega

theorem unpack_packed_normal {biased : Nat} (some : 0 < biased)
    (bounded : biased + 1 < 2 ^ format.exponentBits) (short : mantissa < 2 ^ format.mantissaBits)
    (full : 2 ^ format.mantissaBitsWithoutImplicit ≤ mantissa) (positive : 0 < mantissa) :
    unpack format (packComponents format sign (BitVec.ofNat _ biased) (BitVec.ofNat _ mantissa)) =
      .finite sign mantissa (biased - (format.exponentBias + format.mantissaBitsWithoutImplicit))
        positive := by
  have places : (BitVec.ofNat format.exponentBits biased).toNat = biased := by
    rw [BitVec.toNat_ofNat, Nat.mod_eq_of_lt (by omega)]
  have unbounded : BitVec.ofNat format.exponentBits biased ≠ -1#_ := fun same => by
    have equal := congrArg BitVec.toNat same
    rw [places, toNat_neg_one] at equal
    omega
  have normal : BitVec.ofNat format.exponentBits biased ≠ 0#_ := fun same => by
    have equal := congrArg BitVec.toNat same
    rw [places, BitVec.toNat_zero] at equal
    omega
  have bits := toNat_append_ofNat full (two_pow_mantissaBits format ▸ short)
  unfold unpack
  simp only [unpackMantissa_packComponents, unpackExponent_packComponents,
    unpackSign_packComponents, Sign.ofBitVec_toBitVec, if_neg unbounded, if_neg normal, places,
    bits]

theorem zero_ne_neg_one (format : Format) : 0#(format.exponentBits) ≠ -1#_ := fun same => by
  have equal := congrArg BitVec.toNat same
  have bits := two_pow_exponentBits format
  rw [BitVec.toNat_zero, toNat_neg_one] at equal
  omega

theorem unpack_packed_subnormal (short : mantissa < 2 ^ format.mantissaBitsWithoutImplicit)
    (positive : 0 < mantissa) :
    unpack format (packComponents format sign 0#_ (BitVec.ofNat _ mantissa)) =
      .finite sign mantissa format.minExponent positive := by
  have bits : (BitVec.ofNat format.mantissaBitsWithoutImplicit mantissa).toNat = mantissa := by
    rw [BitVec.toNat_ofNat, Nat.mod_eq_of_lt short]
  have some : BitVec.ofNat format.mantissaBitsWithoutImplicit mantissa ≠ 0#_ := fun same => by
    have equal := congrArg BitVec.toNat same
    rw [bits, BitVec.toNat_zero] at equal
    omega
  have least : ((0#(format.exponentBits)).toNat : Int) -
      (format.exponentBias + format.mantissaBitsWithoutImplicit) + 1 = format.minExponent := by
    rw [minExponent_eq, BitVec.toNat_zero]
    push_cast
    ring
  unfold unpack
  simp only [unpackMantissa_packComponents, unpackExponent_packComponents,
    unpackSign_packComponents, Sign.ofBitVec_toBitVec, bits, if_neg (zero_ne_neg_one format),
    if_true, dif_neg some, least]

theorem unpack_packedZero (format : Format) (sign : Sign) :
    unpack format (packedZero format sign) = .zero sign := by
  unfold unpack packedZero
  simp only [unpackMantissa_packComponents, unpackExponent_packComponents,
    unpackSign_packComponents, Sign.ofBitVec_toBitVec, BitVec.ofNat_eq_ofNat,
    if_neg (zero_ne_neg_one format), if_true, dif_pos]

theorem unpack_packedInfinity (format : Format) (sign : Sign) :
    unpack format (packedInfinity format sign) = .infinity sign := by
  unfold unpack packedInfinity
  simp only [unpackMantissa_packComponents, unpackExponent_packComponents,
    unpackSign_packComponents, Sign.ofBitVec_toBitVec, BitVec.ofNat_eq_ofNat, if_true]

theorem unpack_pack (represented : IsRepresented format fields) :
    unpack format (pack format fields) = fields := by
  have capacity := two_pow_exponentBits format
  cases represented with
  | zero => exact unpack_packedZero ..
  | @finite sign mantissa exponent positive short least low full =>
    rw [minExponent_eq] at least
    rw [highestExponent] at low
    rw [pack, if_neg (by omega)]
    split
    case isTrue top =>
      have full : 2 ^ format.mantissaBitsWithoutImplicit ≤ mantissa := by
        rw [Format.mantissaBits] at top
        rw [(by omega : format.mantissaBitsWithoutImplicit = mantissa.log2)]
        exact Nat.log2_self_le (Nat.ne_of_gt positive)
      rw [unpack_packed_normal (by omega) (by omega) short full positive]
      congr 1
      omega
    case isFalse top =>
      -- with all bits in use, the exponent would be below the least one
      have small : mantissa < 2 ^ format.mantissaBitsWithoutImplicit := by
        by_contra full
        have least := (Nat.le_log2 (Nat.ne_of_gt positive)).mpr (Nat.le_of_not_lt full)
        have most := (Nat.log2_lt (Nat.ne_of_gt positive)).mpr short
        rw [Format.mantissaBits] at top most
        omega
      rw [unpack_packed_subnormal small positive, full.resolve_left (by omega)]

theorem unpack_pack_of_beyond (beyond : highestExponent format < exponent) :
    unpack format (pack format (.finite sign mantissa exponent positive)) = .infinity sign := by
  have capacity := two_pow_exponentBits format
  rw [highestExponent] at beyond
  rw [pack, if_pos (by omega)]
  exact unpack_packedInfinity ..

theorem isRepresented_unpack (wide : format.minExponent ≤ highestExponent format)
    {bits : BitVec format.numBits} (finite : (unpack format bits).isFinite = true) :
    IsRepresented format (unpack format bits) := by
  have capacity := two_pow_exponentBits format
  have least := minExponent_eq format
  have highest : highestExponent format =
    format.exponentBias - format.mantissaBitsWithoutImplicit := rfl
  unfold unpack at finite ⊢
  dsimp only at finite ⊢
  split at finite
  case isTrue => split at finite <;> cases finite
  case isFalse bounded =>
    have places := (unpackExponent bits).isLt
    have below : (unpackExponent bits).toNat ≠ 2 ^ format.exponentBits - 1 := fun same =>
      bounded (BitVec.eq_of_toNat_eq (same.trans (toNat_neg_one _).symm))
    rw [if_neg bounded]
    split
    case isTrue subnormal =>
      split
      case isTrue => exact .zero
      case isFalse =>
        have short := (unpackMantissa bits).isLt
        rw [subnormal, BitVec.toNat_zero]
        refine .finite ?_ (by omega) (by omega) (.inr (by omega))
        rw [two_pow_mantissaBits]
        omega
    case isFalse normal =>
      have some : (unpackExponent bits).toNat ≠ 0 := fun zero =>
        normal (BitVec.eq_of_toNat_eq (zero.trans BitVec.toNat_zero.symm))
      refine .finite (BitVec.isLt _) (by omega) (by omega) (.inl ?_)
      rw [BitVec.toNat_append]
      refine Nat.le_trans (Nat.le_of_eq ?_) Nat.left_le_or
      rw [BitVec.toNat_ofNat, Nat.shiftLeft_eq]
      simp

/-! ## Unpacking -/

theorem toBitVec_ofBitVec (bit : BitVec 1) : (Sign.ofBitVec bit).toBitVec = bit := by
  revert bit
  decide

/-- Bits are their three parts put together again. -/
theorem packComponents_unpack (bits : BitVec format.numBits) :
    packComponents format (Sign.ofBitVec (unpackSign bits)) (unpackExponent bits)
      (unpackMantissa bits) = bits := by
  have := format.hm
  have := format.he
  simp only [packComponents, toBitVec_ofBitVec, unpackSign, unpackExponent, unpackMantissa,
    BitVec.extractLsb]
  ext i below
  grind

/-- Packing gives back the bits that a finite number was unpacked from. -/
theorem pack_unpack (wide : format.minExponent ≤ highestExponent format)
    {bits : BitVec format.numBits} (finite : (unpack format bits).isFinite = true) :
    pack format (unpack format bits) = bits := by
  have capacity := two_pow_exponentBits format
  have least := minExponent_eq format
  have highest : highestExponent format =
    format.exponentBias - format.mantissaBitsWithoutImplicit := rfl
  have together := packComponents_unpack bits
  unfold unpack at finite ⊢
  dsimp only at finite ⊢
  split at finite
  case isTrue => split at finite <;> cases finite
  case isFalse bounded =>
    have places := (unpackExponent bits).isLt
    have short := (unpackMantissa bits).isLt
    have below : (unpackExponent bits).toNat ≠ 2 ^ format.exponentBits - 1 := fun same =>
      bounded (BitVec.eq_of_toNat_eq (same.trans (toNat_neg_one _).symm))
    rw [if_neg bounded]
    split
    case isTrue subnormal =>
      rw [subnormal] at together
      split
      case isTrue none =>
        rw [none] at together
        exact together
      case isFalse some =>
        -- The mantissa is too short for a leading bit, and is packed as it is.
        have bits : ¬ (unpackMantissa bits).toNat.log2 + 1 = format.mantissaBits := by
          have few : (unpackMantissa bits).toNat.log2 < format.mantissaBitsWithoutImplicit := by
            refine (Nat.log2_lt fun zero => some (BitVec.eq_of_toNat_eq zero)).mpr short
          rw [Format.mantissaBits]
          omega
        rw [subnormal, pack, if_neg (by simp; omega), if_neg bits, BitVec.ofNat_toNat,
          BitVec.setWidth_eq]
        exact together
    case isFalse normal =>
      have some : (unpackExponent bits).toNat ≠ 0 := fun zero =>
        normal (BitVec.eq_of_toNat_eq (zero.trans BitVec.toNat_zero.symm))
      -- The leading bit that was put before the mantissa is dropped again.
      have value : (1#1 ++ unpackMantissa bits).toNat =
          2 ^ format.mantissaBitsWithoutImplicit + (unpackMantissa bits).toNat := by
        rw [BitVec.toNat_append, ← Nat.shiftLeft_add_eq_or_of_lt short, Nat.shiftLeft_eq]
        simp
      have leading : (1#1 ++ unpackMantissa bits).toNat.log2 =
          format.mantissaBitsWithoutImplicit := by
        rw [value, Nat.log2_eq_iff (by omega), Nat.pow_succ]
        omega
      have exponent : ((unpackExponent bits).toNat - (format.exponentBias +
          format.mantissaBitsWithoutImplicit) + format.exponentBias +
            format.mantissaBitsWithoutImplicit : ℤ).toNat = (unpackExponent bits).toNat := by
        omega
      have mantissa : BitVec.ofNat format.mantissaBitsWithoutImplicit
          (1#1 ++ unpackMantissa bits).toNat = unpackMantissa bits := by
        rw [value]
        refine BitVec.eq_of_toNat_eq ?_
        rw [BitVec.toNat_ofNat, Nat.add_mod_left, Nat.mod_eq_of_lt short]
      simp only [pack]
      rw [exponent, if_neg (by omega), if_pos (by rw [leading, Format.mantissaBits]; omega),
        mantissa, BitVec.ofNat_toNat, BitVec.setWidth_eq]
      exact together

end Troupe.Number
