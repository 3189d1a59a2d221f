import Mathlib
import Troupe.Proofs.Number.Error
import Troupe.Proofs.Number.Monotone

/-! # Single precision

Sums, differences and products of finite numbers are the exact ones rounded once. The numbers below
a number are a place below it at least.

* `IsRounded` — the result of rounding once.
* `isRounded_add`, `isRounded_sub`, `isRounded_mul` — operations.
* `IsRepresented.abs_le_pred` — the next number below.
-/

namespace Troupe.Number

open Float.Model (UnpackedFloat Format)
open Float.Model.UnpackedFloat

/-! ## Rounding once -/

/-- A number that is an exact one correctly rounded. -/
def IsRounded (result : Float32) (q : ℚ) : Prop :=
  ∃ sign, RoundsTo .binary32 sign q (fields32 result)

theorem wide_binary32 : Format.binary32.minExponent ≤ highestExponent .binary32 := by decide

theorem overflowBound_binary32 : overflowBound .binary32 = 2 ^ 128 - 2 ^ 103 := by
  have highest : highestExponent .binary32 - 1 = (103 : Nat) := by decide
  have bits : Format.binary32.mantissaBits + 1 = 25 := rfl
  rw [overflowBound, highest, bits, zpow_natCast]
  norm_num

variable {x y result : Float32} {q : ℚ} {fields : UnpackedFloat}

theorem isRepresented_of_isFinite (finite : x.isFinite = true) :
    IsRepresented .binary32 (fields32 x) :=
  canonical_iff_isRepresented.mp (canonical_of_isFinite finite)

theorem IsRounded.isFinite_iff (rounded : IsRounded result q) :
    result.isFinite = true ↔ |q| < 2 ^ 128 - 2 ^ 103 := by
  obtain ⟨sign, rounds⟩ := rounded
  rw [← overflowBound_binary32]
  exact rounds.isFinite_iff

theorem IsRounded.isNearest (rounded : IsRounded result q) (finite : result.isFinite = true) :
    IsNearest .binary32 q (fields32 result) := by
  obtain ⟨sign, rounds⟩ := rounded
  exact rounds.isNearest finite

/-- What is represented is not changed. -/
theorem IsRounded.exact (rounded : IsRounded result (valueOf fields))
    (represented : IsRepresented .binary32 fields) :
    result.isFinite = true ∧ value result = valueOf fields := by
  obtain ⟨sign, rounds⟩ := rounded
  obtain ⟨kept, same⟩ := rounds.exact represented wide_binary32
  exact ⟨kept.isFinite, same⟩

theorem IsRounded.exact_value (rounded : IsRounded result (value x)) (finite : x.isFinite = true) :
    result.isFinite = true ∧ value result = value x :=
  rounded.exact (isRepresented_of_isFinite finite)

theorem IsRounded.exact_neg (rounded : IsRounded result (-value x)) (finite : x.isFinite = true) :
    result.isFinite = true ∧ value result = -value x := by
  have turned : -value x = valueOf (fields32 x).neg := (valueOf_neg _).symm
  rw [turned] at rounded ⊢
  exact rounded.exact (isRepresented_of_isFinite finite).neg

theorem IsRounded.exact_zero (rounded : IsRounded result 0) :
    result.isFinite = true ∧ value result = 0 :=
  rounded.exact (.zero : IsRepresented .binary32 (.zero .positive))

theorem IsRepresented.exists_roundsTo {format : Format} (represented : IsRepresented format fields)
    (wide : format.minExponent ≤ highestExponent format) :
    ∃ sign, RoundsTo format sign (valueOf fields) (unpack format (pack format fields)) := by
  rw [unpack_pack represented]
  have within := represented.abs_valueOf_lt wide
  have nearest := represented.isNearest
  cases represented with
  | @zero sign => exact ⟨sign, .nearest within .zero nearest⟩
  | @finite sign => exact ⟨sign, .nearest within .finite nearest⟩

theorem roundsTo_normalize (signed : ℤ) (exponent : Int) (zeroSign : Sign) :
    ∃ sign, RoundsTo .binary32 sign (signed * 2 ^ exponent)
      (unpack .binary32
        (pack .binary32 (UnpackedFloat.normalize .binary32 signed exponent zeroSign))) := by
  unfold UnpackedFloat.normalize
  split
  case h_1 below =>
    have negative := Int.compare_eq_lt.mp below
    have magnitude : (((-signed).toNat : ℕ) : ℚ) = -signed := by
      exact_mod_cast Int.toNat_of_nonneg (by omega)
    have rounds := roundsTo_round wide_binary32 .negative (by omega : 0 < (-signed).toNat) exponent
    exact ⟨.negative, by simpa [Sign.apply, magnitude] using rounds⟩
  case h_2 same =>
    rw [Int.compare_eq_eq.mp same, unpack_pack .zero, Int.cast_zero, zero_mul]
    exact ⟨zeroSign, roundsTo_zero wide_binary32 (by rw [abs_zero]; positivity)⟩
  case h_3 above =>
    have positive := Int.compare_eq_gt.mp above
    have magnitude : ((signed.toNat : ℕ) : ℚ) = signed := by
      exact_mod_cast Int.toNat_of_nonneg (by omega)
    have rounds := roundsTo_round wide_binary32 .positive (by omega : 0 < signed.toNat) exponent
    exact ⟨.positive, by simpa [Sign.apply, magnitude] using rounds⟩

/-! ## Operations -/

theorem roundsTo_add_fields {augend addend : UnpackedFloat}
    (left : IsRepresented .binary32 augend) (right : IsRepresented .binary32 addend) :
    ∃ sign, RoundsTo .binary32 sign (valueOf augend + valueOf addend)
      (unpack .binary32 (pack .binary32 (add .binary32 augend addend))) := by
  have zero (sign : Sign) : valueOf (.zero sign) = 0 := rfl
  have kept {fields : UnpackedFloat} (represented : IsRepresented .binary32 fields) :=
    represented.exists_roundsTo wide_binary32
  have vanishes (sign : Sign) :
      ∃ other, RoundsTo .binary32 other 0 (unpack .binary32 (pack .binary32 (.zero sign))) :=
    kept .zero
  cases left with
  | @zero sign =>
    rw [zero, zero_add]
    cases right with
    | @zero sign' =>
      rw [zero]
      cases sign <;> cases sign' <;> exact vanishes _
    | finite short least low full => exact kept (.finite short least low full)
  | @finite sign mantissa exponent positive short least low full =>
    cases right with
    | zero =>
      rw [zero, add_zero]
      exact kept (.finite short least low full)
    | @finite sign' significand power positive' short' least' low' full' =>
      rw [← valueOf_decreaseExponent (Int.min_le_left exponent power),
        ← valueOf_decreaseExponent (Int.min_le_right exponent power), ← add_mul, ← Int.cast_add]
      exact roundsTo_normalize _ _ .positive

section Finite

variable (finite : x.isFinite = true) (finite' : y.isFinite = true)

include finite finite'

theorem isRounded_add : IsRounded (x + y) (value x + value y) :=
  roundsTo_add_fields (isRepresented_of_isFinite finite) (isRepresented_of_isFinite finite')

theorem isRounded_sub : IsRounded (x - y) (value x - value y) := by
  have left := canonical_of_isFinite finite
  have right := canonical_of_isFinite finite'
  have same : value x - value y = valueOf (fields32 x) + valueOf (fields32 y).neg := by
    rw [valueOf_neg, ← sub_eq_add_neg, value, value]
  change ∃ sign, RoundsTo _ _ _
    (unpack .binary32 (pack .binary32 (sub .binary32 (fields32 x) (fields32 y))))
  rw [same, sub_fields_eq_add_neg left right]
  exact roundsTo_add_fields (canonical_iff_isRepresented.mp left)
    (canonical_iff_isRepresented.mp right).neg

theorem isRounded_mul : IsRounded (x * y) (value x * value y) := by
  have left := isRepresented_of_isFinite finite
  have right := isRepresented_of_isFinite finite'
  change ∃ sign, RoundsTo _ _ _
    (unpack .binary32 (pack .binary32 (mul .binary32 (fields32 x) (fields32 y))))
  unfold value
  generalize fields32 x = multiplicand at *
  generalize fields32 y = multiplier at *
  have zero (sign : Sign) : valueOf (.zero sign) = 0 := rfl
  have vanishes (sign : Sign) :
      ∃ other, RoundsTo .binary32 other 0 (unpack .binary32 (pack .binary32 (.zero sign))) :=
    IsRepresented.zero.exists_roundsTo wide_binary32
  cases left with
  | @zero sign =>
    rw [zero, zero_mul]
    cases right <;> exact vanishes _
  | @finite sign mantissa exponent positive short least low full =>
    cases right with
    | zero =>
      rw [zero, mul_zero]
      exact vanishes _
    | @finite sign' significand power positive' short' least' low' full' =>
      exact ⟨_, roundsTo_mul wide_binary32
        (le_placeIn_mul (by decide) positive positive' full full')⟩

theorem value_mul_of_zero (zero : value x = 0 ∨ value y = 0) :
    (x * y).isFinite = true ∧ value (x * y) = 0 := by
  have rounded := isRounded_mul finite finite'
  rw [mul_eq_zero.mpr zero] at rounded
  exact rounded.exact_zero

end Finite

/-! ## Neighbours -/

/-- A number of a format that is below another one with all bits, and one to spare, is a place below
    it. So is one that is below any multiple of the least place. -/
theorem IsRepresented.abs_le_pred {format : Format} (represented : IsRepresented format fields)
    (mantissa : Nat) (exponent : Int) (wide : format.minExponent ≤ highestExponent format)
    (long : 2 ^ format.mantissaBitsWithoutImplicit < mantissa ∨ exponent = format.minExponent)
    (less : |valueOf fields| < mantissa * 2 ^ exponent) :
    |valueOf fields| ≤ (mantissa - 1) * 2 ^ exponent := by
  obtain ⟨factor, power, same, short, least, _⟩ := represented.exists_factor wide .positive
  have scale : (0 : ℚ) < 2 ^ exponent := by positivity
  have magnitude : |valueOf fields| = |factor| * 2 ^ power := by
    rw [same, abs_signed, abs_mul, abs_of_pos (by positivity : (0 : ℚ) < 2 ^ power)]
    push_cast
    rfl
  rw [magnitude] at less ⊢
  rcases le_or_gt exponent power with above | below
  · have multiple : ((|factor| : ℤ) : ℚ) * 2 ^ power =
        (|factor| * 2 ^ (power - exponent).toNat : ℤ) * 2 ^ exponent := by
      push_cast
      rw [mul_assoc, ← zpow_natCast, ← zpow_add₀ two_ne_zero]
      congr 2
      omega
    rw [multiple] at less ⊢
    have whole : |factor| * 2 ^ (power - exponent).toNat < mantissa := by
      exact_mod_cast lt_of_mul_lt_mul_right less scale.le
    refine mul_le_mul_of_nonneg_right ?_ scale.le
    exact_mod_cast Int.le_sub_one_of_lt whole
  · have small : ((|factor| : ℤ) : ℚ) * 2 ^ power <
        2 ^ format.mantissaBitsWithoutImplicit * 2 ^ exponent :=
      lt_of_place_lt (by rwa [abs_abs]) below
    refine small.le.trans (mul_le_mul_of_nonneg_right ?_ scale.le)
    have next : (2 : ℚ) ^ format.mantissaBitsWithoutImplicit + 1 ≤ mantissa := by
      exact_mod_cast long.resolve_right (by omega)
    linarith

end Troupe.Number
