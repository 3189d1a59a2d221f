import Mathlib
import Troupe.Proofs.Number.Monotone
import Troupe.Proofs.Number.Finite

/-! # Double precision

Doubles are in the order of the rational numbers that they stand for. Reading one as an amount or as
a count keeps that order, up to the largest amount and the largest count.

* `value64` — the rational number that a finite double stands for.
* `lt64_iff_value` — the order.
* `saturate_le_saturate`, `saturate_eq_largest32` — amounts.
* `toNat_toUInt32` — counts.
-/

namespace Troupe.Number

open Float.Model (UnpackedFloat Format)
open Float.Model.UnpackedFloat

variable {x y : Float}

/-! ## Values -/

def value64 (x : Float) : ℚ :=
  valueOf (fields64 x)

theorem isRepresented_of_isFinite64 (finite : x.isFinite = true) :
    IsRepresented .binary64 (fields64 x) :=
  isRepresented_unpack (by decide) finite

theorem lt64_iff_value (finite : x.isFinite = true) (finite' : y.isFinite = true) :
    x < y ↔ value64 x < value64 y := by
  rw [lt64_iff_compare, (isRepresented_of_isFinite64 finite).compare_eq
    (isRepresented_of_isFinite64 finite'), Option.some.injEq, compare_lt_iff_lt]
  rfl

theorem eq_of_fields64 (finite : x.isFinite = true) (same : fields64 x = fields64 y) : x = y := by
  have finite' : (fields64 y).isFinite = true := same ▸ finite
  have packed : pack .binary64 (fields64 x) = x.toModel.toBits.toBitVec :=
    pack_unpack (by decide) finite
  have packed' : pack .binary64 (fields64 y) = y.toModel.toBits.toBitVec :=
    pack_unpack (by decide) finite'
  obtain ⟨⟨bits, _⟩⟩ := x
  obtain ⟨⟨bits', _⟩⟩ := y
  obtain rfl : bits = bits' := UInt64.toBitVec_inj.mp (packed.symm.trans (same ▸ packed'))
  rfl

theorem eq_of_fields32 {x y : Float32} (finite : x.isFinite = true)
    (same : fields32 x = fields32 y) : x = y := by
  have finite' : (fields32 y).isFinite = true := same ▸ finite
  have packed : pack .binary32 (fields32 x) = x.toModel.toBits.toBitVec :=
    pack_unpack (by decide) finite
  have packed' : pack .binary32 (fields32 y) = y.toModel.toBits.toBitVec :=
    pack_unpack (by decide) finite'
  obtain ⟨⟨bits, _⟩⟩ := x
  obtain ⟨⟨bits', _⟩⟩ := y
  obtain rfl : bits = bits' := UInt32.toBitVec_inj.mp (packed.symm.trans (same ▸ packed'))
  rfl

/-! ## Amounts -/

/-- The end of the finite range of single precision. -/
def limit32 : ℚ :=
  (2 ^ 24 - 1) * 2 ^ 104

/-- A number moved into that range. -/
def held (q : ℚ) : ℚ :=
  max (-limit32) (min limit32 q)

theorem limit32_pos : 0 < limit32 := by
  unfold limit32
  positivity

theorem value_largest32 : value largest32 = limit32 := by
  have largest : fields32 largest32 = .finite .positive (2 ^ 24 - 1) 104 (by decide) := rfl
  rw [value, largest, valueOf_positive, limit32]
  norm_num

theorem value64_largest64 : value64 largest64 = limit32 := by
  have largest : fields64 largest64 = .finite .positive ((2 ^ 24 - 1) * 2 ^ 29) 75 (by decide) :=
    rfl
  rw [value64, largest, valueOf_positive, limit32]
  norm_num

theorem value64_neg_largest64 : value64 (-largest64) = -limit32 := by
  have least : fields64 (-largest64) = (fields64 largest64).neg := rfl
  rw [value64, least, valueOf_neg, ← value64, value64_largest64]

theorem roundsTo_narrow (finite : x.isFinite = true) :
    ∃ sign, RoundsTo .binary32 sign (value64 x) (fields32 (narrow x)) := by
  change ∃ sign, RoundsTo _ _ _
    (unpack .binary32 (pack .binary32 (roundFields .binary32 (fields64 x))))
  have represented := isRepresented_of_isFinite64 finite
  unfold value64
  generalize fields64 x = fields at *
  cases represented with
  | @zero sign =>
    refine ⟨sign, ?_⟩
    change RoundsTo _ _ 0 (unpack .binary32 (pack .binary32 (.zero sign)))
    rw [unpack_pack .zero]
    exact roundsTo_zero (by decide) (by rw [abs_zero]; positivity)
  | @finite sign mantissa exponent positive =>
    refine ⟨sign, ?_⟩
    rw [roundFields, valueOf, signed_apply, mul_assoc]
    exact roundsTo_round (by decide) sign positive exponent

theorem value64_clamp_largest (finite : x.isFinite = true) :
    (clamp (-largest64) largest64 x).isFinite = true ∧
      value64 (clamp (-largest64) largest64 x) = held (value64 x) := by
  have finite' : largest64.isFinite = true := by decide +kernel
  have finite'' : (-largest64).isFinite = true := by decide +kernel
  have positive := limit32_pos
  have below_iff := lt64_iff_value finite finite''
  have above_iff := lt64_iff_value finite' finite
  rw [value64_neg_largest64] at below_iff
  rw [value64_largest64] at above_iff
  unfold clamp held
  split
  case isTrue below =>
    have below := below_iff.mp below
    rw [value64_neg_largest64, min_eq_right (by linarith), max_eq_left below.le]
    exact ⟨finite'', rfl⟩
  case isFalse notBelow =>
    have notBelow := not_lt.mp (mt below_iff.mpr notBelow)
    split
    case isTrue above =>
      have above := above_iff.mp above
      rw [value64_largest64, min_eq_left above.le, max_eq_right (by linarith)]
      exact ⟨finite', rfl⟩
    case isFalse notAbove =>
      rw [min_eq_right (not_lt.mp (mt above_iff.mpr notAbove)), max_eq_right notBelow]
      exact ⟨finite, rfl⟩

/-- An amount is the nearest one to what is read, or to the end of the range. -/
theorem isNearest_saturate (finite : x.isFinite = true) :
    IsNearest .binary32 (held (value64 x)) (fields32 (saturate x)) := by
  obtain ⟨clamped, same⟩ := value64_clamp_largest finite
  obtain ⟨sign, rounds⟩ := roundsTo_narrow clamped
  rw [← same]
  exact rounds.isNearest (isFinite_saturate finite)

theorem saturate_le_saturate (finite : x.isFinite = true) (finite' : y.isFinite = true)
    (le : value64 x ≤ value64 y) : saturate x ≤ saturate y := by
  rw [le_iff_value (isFinite_saturate finite) (isFinite_saturate finite')]
  exact (isNearest_saturate finite).le_of_le (by decide) (isNearest_saturate finite')
    (max_le_max le_rfl (min_le_min le_rfl le))

theorem IsNearest.eq_of_valueOf {format : Format} {fields other : UnpackedFloat}
    (nearest : IsNearest format (valueOf other) fields) (represented : IsRepresented format other)
    (some : valueOf other ≠ 0) : fields = other := by
  have none := nearest.closest other represented
  rw [sub_self, abs_zero] at none
  have same := sub_eq_zero.mp (abs_nonpos_iff.mp none)
  exact nearest.represented.eq_of_valueOf_ne_zero represented same (same ▸ some)

theorem saturate_eq_largest32 (finite : x.isFinite = true) (beyond : limit32 ≤ value64 x) :
    saturate x = largest32 := by
  have nearest := isNearest_saturate finite
  have positive := limit32_pos
  have end' : held (value64 x) = valueOf (fields32 largest32) := by
    rw [held, min_eq_left beyond, max_eq_right (by linarith), ← value_largest32]
    rfl
  rw [end'] at nearest
  refine eq_of_fields32 (isFinite_saturate finite) (nearest.eq_of_valueOf ?_ ?_)
  · exact canonical_iff_isRepresented.mp (canonical_of_isFinite (by decide))
  · rw [← value, value_largest32]
    exact positive.ne'

theorem saturate_eq_neg_largest32 (finite : x.isFinite = true) (beyond : value64 x ≤ -limit32) :
    saturate x = -largest32 := by
  have nearest := isNearest_saturate finite
  have positive := limit32_pos
  have least : valueOf (fields32 (-largest32)) = -limit32 := by
    have turned : fields32 (-largest32) = (fields32 largest32).neg := rfl
    rw [turned, valueOf_neg, ← value_largest32]
    rfl
  have end' : held (value64 x) = valueOf (fields32 (-largest32)) := by
    rw [held, min_eq_right (by linarith), max_eq_left beyond, least]
  rw [end'] at nearest
  refine eq_of_fields32 (isFinite_saturate finite) (nearest.eq_of_valueOf ?_ ?_)
  · exact canonical_iff_isRepresented.mp (canonical_of_isFinite (by decide))
  · rw [least]
    exact (neg_lt_zero.mpr positive).ne

/-! ## Counts -/

/-- The whole part is what is left of the mantissa when the bits after the point are moved out. -/
theorem roundToInt_eq (sign : Sign) (mantissa : Nat) (exponent : Int) :
    roundToInt sign mantissa exponent =
      sign.apply ⌊(mantissa : ℚ) * 2 ^ exponent⌋₊ := by
  have same := value_decreaseExponent mantissa exponent 0
  have low := exponent_decreaseExponent mantissa exponent 0
  rw [roundToInt, ← same]
  generalize decreaseExponent mantissa exponent 0 = moved at *
  obtain ⟨significand, power⟩ := moved
  dsimp only at low ⊢
  have negative : (2 : ℚ) ^ power = ((2 ^ (0 - power).toNat : Nat) : ℚ)⁻¹ := by
    push_cast
    rw [← zpow_natCast, ← zpow_neg]
    congr 1
    omega
  have shifts : (shiftToExponent significand power .exact 0).1.mantissa =
      significand / 2 ^ (0 - power).toNat :=
    mantissa_shiftRight _ _
  rw [shifts, negative, ← div_eq_mul_inv, Nat.floor_div_eq_div]

/-- The whole part of a number, held inside the range of counts. -/
theorem toNat_toUInt32 (finite : x.isFinite = true) :
    x.toUInt32.toNat = min ⌊value64 x⌋₊ 4294967295 := by
  have clamped (n : Nat) : (UInt32.ofNatClamp n).toNat = min n 4294967295 := by
    unfold UInt32.ofNatClamp UInt32.size
    split
    case isTrue short => exact (min_eq_left (Nat.le_of_lt_succ short)).symm
    case isFalse long => exact (Nat.min_eq_right (by omega : 4294967295 ≤ n)).symm
  change (UInt32.ofNatClamp ((fields64 x).toInt 0 (UInt32.size - 1)).toNat).toNat = _
  have represented := isRepresented_of_isFinite64 finite
  rw [clamped, value64]
  generalize fields64 x = fields at *
  cases represented with
  | zero => simp [toInt, valueOf]
  | @finite sign mantissa exponent positive =>
    rw [toInt, roundToInt_eq]
    cases sign with
    | positive => rw [valueOf_positive, Sign.apply, Int.toNat_natCast]
    | negative =>
      rw [Nat.floor_of_nonpos valueOf_negative_neg.le]
      simp [Sign.apply]

end Troupe.Number
