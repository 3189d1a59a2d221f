import Mathlib
import Troupe.Proofs.Number.Mantissa

/-! # Correct rounding

Rounding keeps as many bits of a mantissa as a format has, or as many as there are above the least
place. Two more bits tell on which side of the middle the exact number lies, so the result is the
nearest number of the format, and the one with the even mantissa if there are two. From half a place
above the largest number on it is infinite.

* `Holds` — the numbers that a mantissa with two more bits stands for.
* `RoundsTo` — the result of correct rounding.
* `RoundsAt` — rounding to a whole number of places.
* `roundsTo_roundWithAccuracy` — rounding is correct.
-/

namespace Troupe.Number

open Float.Model (UnpackedFloat Format totalExponent)
open Float.Model.UnpackedFloat

/-! ## Results of rounding -/

/-- Half a last place above the largest number of a format. -/
def overflowBound (format : Format) : ℚ :=
  (2 ^ (format.mantissaBits + 1) - 1) * 2 ^ (highestExponent format - 1)

def HasEvenMantissa : UnpackedFloat → Prop
  | .finite _ mantissa _ _ => Even mantissa
  | _ => True

/-- No number of a format is nearer, and if another one is as near, the mantissa is even. -/
structure IsNearest (format : Format) (q : ℚ) (fields : UnpackedFloat) : Prop where
  represented : IsRepresented format fields
  closest : ∀ other, IsRepresented format other → |valueOf fields - q| ≤ |valueOf other - q|
  even : ∀ other, IsRepresented format other → |valueOf other - q| = |valueOf fields - q| →
    valueOf other ≠ valueOf fields → HasEvenMantissa fields

/-- The result of rounding to nearest, with ties to even. -/
inductive RoundsTo (format : Format) (sign : Sign) (q : ℚ) : UnpackedFloat → Prop
  | overflow (beyond : overflowBound format ≤ |q|) : RoundsTo format sign q (.infinity sign)
  | nearest {fields : UnpackedFloat} (within : |q| < overflowBound format)
      (signed : Signed sign fields) (nearest : IsNearest format q fields) :
      RoundsTo format sign q fields

/-- Rounding a number to a multiple of a place that a format has for it. -/
structure RoundsAt (format : Format) (q : ℚ) (rounded : Nat) (place : Int) : Prop where
  least : format.minExponent ≤ place
  full : place = format.minExponent ∨ 2 ^ format.mantissaBitsWithoutImplicit ≤ q / 2 ^ place
  short : q / 2 ^ place < 2 ^ format.mantissaBits
  nearest : IsNearestEven rounded (q / 2 ^ place)

/-! ## Multiples of a place -/

section Place

variable {format : Format} {q : ℚ} {rounded : Nat} {place : Int}

theorem two_mul_zpow_le {low high : Int} (lt : low < high) : (2 : ℚ) * 2 ^ low ≤ 2 ^ high := by
  rw [← zpow_one_add₀ two_ne_zero]
  exact zpow_le_zpow_right₀ (by norm_num) (by omega)

theorem two_pow_mantissaBits_rat (format : Format) :
    (2 : ℚ) ^ format.mantissaBits = 2 * 2 ^ format.mantissaBitsWithoutImplicit := by
  exact_mod_cast two_pow_mantissaBits format

theorem lt_of_place_lt {factor power : ℤ} (short : |factor| < 2 ^ format.mantissaBits)
    (below : power < place) :
    (factor : ℚ) * 2 ^ power < 2 ^ format.mantissaBitsWithoutImplicit * 2 ^ place := by
  have bits : (factor : ℚ) < 2 * 2 ^ format.mantissaBitsWithoutImplicit := by
    rw [← two_pow_mantissaBits_rat]
    exact_mod_cast (le_abs_self factor).trans_lt short
  have twice := two_mul_zpow_le below
  calc (factor : ℚ) * 2 ^ power
      < 2 * 2 ^ format.mantissaBitsWithoutImplicit * 2 ^ power := by gcongr
    _ = 2 ^ format.mantissaBitsWithoutImplicit * (2 * 2 ^ power) := by ring
    _ ≤ 2 ^ format.mantissaBitsWithoutImplicit * 2 ^ place := by gcongr

/-- Numbers of a format with smaller places are below those with the full number of bits. -/
theorem RoundsAt.close_or (rounds : RoundsAt format q rounded place) {factor power : ℤ}
    (short : |factor| < 2 ^ format.mantissaBits) (least : format.minExponent ≤ power) :
    |rounded * 2 ^ place - q| < |factor * 2 ^ power - q| ∨
      |rounded * 2 ^ place - q| = |factor * 2 ^ power - q| ∧
        ((factor : ℚ) * 2 ^ power ≠ rounded * 2 ^ place → Even rounded) := by
  have scale : (0 : ℚ) < 2 ^ place := by positivity
  have scaled (x : ℚ) : |x * 2 ^ place - q| = |x - q / 2 ^ place| * 2 ^ place := by
    rw [← abs_of_pos scale, ← abs_mul, abs_of_pos scale, sub_mul, div_mul_cancel₀ _ scale.ne']
  rcases lt_or_ge power place with below | above
  -- with a smaller place it is below the least number with all bits, and so farther away
  · left
    have least := lt_of_place_lt short below
    have full := (le_div_iff₀ scale).mp (rounds.full.resolve_left (by omega))
    calc |(rounded : ℚ) * 2 ^ place - q|
        ≤ |2 ^ format.mantissaBitsWithoutImplicit * 2 ^ place - q| := by
          rw [scaled, scaled]
          refine mul_le_mul_of_nonneg_right ?_ scale.le
          simpa using rounds.nearest.le_abs (2 ^ format.mantissaBitsWithoutImplicit)
      _ = q - 2 ^ format.mantissaBitsWithoutImplicit * 2 ^ place := by
          rw [abs_sub_comm, abs_of_nonneg (by linarith)]
      _ < |factor * 2 ^ power - q| := by
          rw [abs_sub_comm, abs_of_pos (by linarith)]
          linarith
  -- with a greater place it is a multiple of this one too
  · have multiple : (factor : ℚ) * 2 ^ power =
        (factor * 2 ^ (power - place).toNat : ℤ) * 2 ^ place := by
      push_cast
      rw [mul_assoc, ← zpow_natCast, ← zpow_add₀ two_ne_zero]
      congr 2
      omega
    rw [multiple, scaled, scaled]
    generalize factor * 2 ^ (power - place).toNat = other
    by_cases same : other = rounded
    · subst same
      exact .inr ⟨by simp, fun differs => absurd (by simp) differs⟩
    · rcases rounds.nearest.close_or other same with less | ⟨tie, even⟩
      · exact .inl (mul_lt_mul_of_pos_right less scale)
      · exact .inr ⟨by rw [tie], fun _ => even⟩

theorem RoundsAt.rounded_le (rounds : RoundsAt format q rounded place) :
    rounded ≤ 2 ^ format.mantissaBits := by
  refine rounds.nearest.le_of_le ?_
  push_cast
  exact rounds.short.le

theorem RoundsAt.le_rounded (rounds : RoundsAt format q rounded place)
    (above : place ≠ format.minExponent) :
    2 ^ format.mantissaBitsWithoutImplicit ≤ rounded := by
  refine rounds.nearest.le_of_ge ?_
  push_cast
  exact rounds.full.resolve_left above

theorem overflowBound_eq (format : Format) :
    overflowBound format = (2 ^ format.mantissaBits - 1 / 2) * 2 ^ highestExponent format := by
  rw [overflowBound, pow_succ, zpow_sub_one₀ two_ne_zero]
  ring

/-- Rounding stays within a format up to the highest exponent, unless it carries there. -/
theorem RoundsAt.lt_overflowBound_iff (rounds : RoundsAt format q rounded place)
    (wide : format.minExponent ≤ highestExponent format) :
    q < overflowBound format ↔
      place < highestExponent format ∨
        place = highestExponent format ∧ rounded < 2 ^ format.mantissaBits := by
  have scale : (0 : ℚ) < 2 ^ place := by positivity
  have bits := two_pow_mantissaBits_rat format
  have some : (1 : ℚ) ≤ 2 ^ format.mantissaBitsWithoutImplicit := one_le_pow₀ one_le_two
  rw [overflowBound_eq]
  rcases lt_trichotomy place (highestExponent format) with below | rfl | above
  -- Even a carry leaves the exponent in range.
  · refine iff_of_true ?_ (.inl below)
    have short := (div_lt_iff₀ scale).mp rounds.short
    have twice := two_mul_zpow_le below
    calc q < 2 ^ format.mantissaBits * 2 ^ place := short
      _ ≤ (2 ^ format.mantissaBits - 1 / 2) * (2 * 2 ^ place) := by nlinarith
      _ ≤ (2 ^ format.mantissaBits - 1 / 2) * 2 ^ highestExponent format :=
        mul_le_mul_of_nonneg_left twice (by linarith)
  -- A tie between the greatest mantissa and the next power goes to the power, which is even.
  · have even : Even (2 ^ format.mantissaBits) :=
      two_pow_mantissaBits format ▸ even_two_mul _
    have lt_iff := rounds.nearest.lt_iff even
    push_cast at lt_iff
    rw [div_lt_iff₀ scale] at lt_iff
    simp [lt_iff]
  · refine iff_of_false (not_lt.mpr ?_) (by omega)
    have full := (le_div_iff₀ scale).mp (rounds.full.resolve_left (by omega))
    have twice := two_mul_zpow_le above
    calc (2 ^ format.mantissaBits - 1 / 2) * (2 : ℚ) ^ highestExponent format
        ≤ 2 ^ format.mantissaBitsWithoutImplicit * (2 * 2 ^ highestExponent format) := by
          rw [bits]
          nlinarith [zpow_pos (two_pos (α := ℚ)) (highestExponent format)]
      _ ≤ 2 ^ format.mantissaBitsWithoutImplicit * 2 ^ place := by gcongr
      _ ≤ q := full

end Place

/-! ## Numbers after rounding -/

section Settling

variable {format : Format} {sign : Sign} {q : ℚ} {rounded : Nat} {place : Int}
  {fields : UnpackedFloat}

/-- Fields with a rounded mantissa. If it has been carried into one more bit, the last one is zero
    and left out. -/
inductive Settles (format : Format) (sign : Sign) (rounded : Nat) (place : Int) :
    UnpackedFloat → Prop
  | zero (vanishes : rounded = 0) : Settles format sign rounded place (.zero sign)
  | kept {positive : 0 < rounded} (short : rounded < 2 ^ format.mantissaBits) :
      Settles format sign rounded place (.finite sign rounded place positive)
  | carried {positive : 0 < 2 ^ format.mantissaBitsWithoutImplicit}
      (long : rounded = 2 ^ format.mantissaBits) :
      Settles format sign rounded place
        (.finite sign (2 ^ format.mantissaBitsWithoutImplicit) (place + 1) positive)

theorem signed_apply (sign : Sign) (number : Nat) :
    ((sign.apply number : ℤ) : ℚ) = (sign.apply 1 : ℤ) * number := by
  cases sign <;> simp [Sign.apply]

theorem abs_signed (sign : Sign) (q : ℚ) : |(sign.apply 1 : ℤ) * q| = |q| := by
  cases sign <;> simp [Sign.apply]

theorem Settles.valueOf_eq (settles : Settles format sign rounded place fields) :
    valueOf fields = (sign.apply 1 : ℤ) * (rounded * 2 ^ place) := by
  cases settles with
  | zero vanishes => simp [vanishes, valueOf]
  | kept => rw [valueOf, signed_apply, mul_assoc]
  | carried long =>
    rw [valueOf, signed_apply, long, zpow_add_one₀ two_ne_zero]
    push_cast
    rw [two_pow_mantissaBits_rat]
    ring

theorem Settles.hasEvenMantissa (settles : Settles format sign rounded place fields)
    (even : Even rounded) : HasEvenMantissa fields := by
  cases settles with
  | zero => trivial
  | kept => exact even
  | carried => exact even_two.pow_of_ne_zero format.hm.ne'

theorem Settles.signed (settles : Settles format sign rounded place fields) :
    Signed sign fields := by
  cases settles with
  | zero => exact .zero
  | kept => exact .finite
  | carried => exact .finite

/-- The numbers of a format as multiples of their places, counted in the direction of a sign. -/
theorem IsRepresented.exists_factor (represented : IsRepresented format fields)
    (wide : format.minExponent ≤ highestExponent format) (sign : Sign) :
    ∃ factor power : ℤ, valueOf fields = (sign.apply 1 : ℤ) * (factor * 2 ^ power) ∧
      |factor| < 2 ^ format.mantissaBits ∧ format.minExponent ≤ power ∧
        power ≤ highestExponent format := by
  cases represented with
  | zero => exact ⟨0, format.minExponent, by simp [valueOf], by simp, le_refl _, wide⟩
  | @finite own mantissa exponent positive short least low full =>
    refine ⟨sign.apply 1 * own.apply mantissa, exponent, ?_, ?_, least, low⟩
    · cases sign <;> simp [valueOf, Sign.apply]
    · have short : (mantissa : ℤ) < 2 ^ format.mantissaBits := by exact_mod_cast short
      cases sign <;> cases own <;> simpa [Sign.apply] using short

/-- What rounding to a place leads to is the nearest number of the format. -/
theorem Settles.isNearest (settles : Settles format sign rounded place fields)
    (rounds : RoundsAt format q rounded place) (represented : IsRepresented format fields)
    (wide : format.minExponent ≤ highestExponent format) :
    IsNearest format ((sign.apply 1 : ℤ) * q) fields := by
  have compared (other : UnpackedFloat) (represented : IsRepresented format other) :
      |valueOf fields - (sign.apply 1 : ℤ) * q| < |valueOf other - (sign.apply 1 : ℤ) * q| ∨
        |valueOf fields - (sign.apply 1 : ℤ) * q| = |valueOf other - (sign.apply 1 : ℤ) * q| ∧
          (valueOf other ≠ valueOf fields → Even rounded) := by
    obtain ⟨factor, power, same, short, least, _⟩ := represented.exists_factor wide sign
    rw [same, settles.valueOf_eq, ← mul_sub, ← mul_sub, abs_signed, abs_signed]
    exact (rounds.close_or short least).imp_right fun ⟨tie, even⟩ =>
      ⟨tie, fun differs => even (mt (congrArg _) differs)⟩
  refine ⟨represented, fun other represented => ?_, fun other represented tie differs => ?_⟩
  · exact (compared other represented).elim (fun less => less.le) fun tie => tie.1.le
  · rcases compared other represented with less | ⟨_, even⟩
    · exact absurd tie less.ne'
    · exact settles.hasEvenMantissa (even differs)

theorem Settles.isRepresented (settles : Settles format sign rounded place fields)
    (rounds : RoundsAt format q rounded place)
    (within : place < highestExponent format ∨
      place = highestExponent format ∧ rounded < 2 ^ format.mantissaBits) :
    IsRepresented format fields := by
  have least := rounds.least
  cases settles with
  | zero => exact .zero
  | kept short =>
    exact .finite short least (by omega) (or_iff_not_imp_right.mpr rounds.le_rounded)
  | carried long =>
    refine .finite ?_ (by omega) (by omega) (.inl (Nat.le_refl _))
    rw [two_pow_mantissaBits]
    have some := Nat.two_pow_pos format.mantissaBitsWithoutImplicit
    omega

/-- Rounding to a place that a format has for a number is correct, once what is beyond the highest
    exponent has become infinite. -/
theorem Settles.roundsTo (settles : Settles format sign rounded place fields)
    (rounds : RoundsAt format q rounded place) (nonneg : 0 ≤ q)
    (wide : format.minExponent ≤ highestExponent format) :
    RoundsTo format sign ((sign.apply 1 : ℤ) * q) (unpack format (pack format fields)) := by
  have lt_iff := rounds.lt_overflowBound_iff wide
  have magnitude : |((sign.apply 1 : ℤ) : ℚ) * q| = q := by rw [abs_signed, abs_of_nonneg nonneg]
  by_cases within : q < overflowBound format
  · have represented := settles.isRepresented rounds (lt_iff.mp within)
    rw [unpack_pack represented]
    exact .nearest (magnitude.symm ▸ within) settles.signed
      (settles.isNearest rounds represented wide)
  · have high := mt lt_iff.mpr within
    have beyond : overflowBound format ≤ |((sign.apply 1 : ℤ) : ℚ) * q| :=
      magnitude.symm ▸ not_lt.mp within
    cases settles with
    -- zero is in the range: its place is the least one
    | zero vanishes =>
      have some := Nat.two_pow_pos format.mantissaBitsWithoutImplicit
      by_cases least : place = format.minExponent
      · have := Nat.two_pow_pos format.mantissaBits
        omega
      · have := rounds.le_rounded least
        omega
    | kept =>
      rw [unpack_pack_of_beyond (by omega)]
      exact .overflow beyond
    | carried =>
      rw [unpack_pack_of_beyond (by omega)]
      exact .overflow beyond

end Settling

/-! ## Rounding -/

section Rounding

variable {format : Format} {sign : Sign} {mantissa : Nat} {exponent : Int} {accuracy : Accuracy}
  {x : ℚ}

/-- The exponent of the last bit that rounding keeps. -/
def placeIn (format : Format) (mantissa : Nat) (exponent : Int) : Int :=
  format.targetExponent (totalExponent mantissa exponent)

/-- The mantissa that rounding leaves, before a carry is moved out. -/
def roundedIn (format : Format) (mantissa : Nat) (exponent : Int) (accuracy : Accuracy) : Nat :=
  (ExtendedMantissa.ofMantissaAndAccuracy mantissa accuracy >>>
    (placeIn format mantissa exponent - exponent).toNat).roundedMantissa

/-- Above the least place, all bits of the format are kept. -/
theorem full_placeIn (low : exponent ≤ placeIn format mantissa exponent)
    (holds : Holds (.ofMantissaAndAccuracy mantissa accuracy) x)
    (above : placeIn format mantissa exponent ≠ format.minExponent) :
    2 ^ format.mantissaBitsWithoutImplicit ≤
      x * 2 ^ exponent / 2 ^ placeIn format mantissa exponent := by
  have place : placeIn format mantissa exponent + format.mantissaBitsWithoutImplicit =
      mantissa.log2 + exponent := by
    simp only [placeIn, Format.targetExponent, totalExponent, Format.mantissaBits] at above ⊢
    push_cast
    omega
  have some : mantissa ≠ 0 := by
    rintro rfl
    have bits := format.hm
    rw [Nat.log2_zero] at place
    omega
  rw [le_div_iff₀ (by positivity)]
  calc (2 : ℚ) ^ format.mantissaBitsWithoutImplicit * 2 ^ placeIn format mantissa exponent
      = 2 ^ mantissa.log2 * 2 ^ exponent := by
        rw [← zpow_natCast, ← zpow_natCast, ← zpow_add₀ two_ne_zero, ← zpow_add₀ two_ne_zero,
          add_comm, place]
    _ ≤ mantissa * 2 ^ exponent := by
        gcongr
        exact_mod_cast Nat.log2_self_le some
    _ ≤ x * 2 ^ exponent := by
        gcongr
        exact holds.le_of_accuracy

/-- No more bits are kept than the format has. -/
theorem short_placeIn (holds : Holds (.ofMantissaAndAccuracy mantissa accuracy) x) :
    x * 2 ^ exponent / 2 ^ placeIn format mantissa exponent < 2 ^ format.mantissaBits := by
  have place : (mantissa.log2 + 1 : Nat) + exponent ≤
      (format.mantissaBits : Int) + placeIn format mantissa exponent := by
    simp only [placeIn, Format.targetExponent, totalExponent]
    push_cast
    omega
  have below : ((mantissa + 1 : Nat) : ℚ) ≤ 2 ^ (mantissa.log2 + 1) := by
    exact_mod_cast (Nat.lt_log2_self : mantissa < 2 ^ (mantissa.log2 + 1))
  rw [div_lt_iff₀ (by positivity)]
  calc x * 2 ^ exponent < (mantissa + 1 : Nat) * 2 ^ exponent := by
        gcongr
        exact_mod_cast holds.lt_add_one
    _ ≤ 2 ^ (mantissa.log2 + 1) * 2 ^ exponent := by gcongr
    _ ≤ 2 ^ format.mantissaBits * 2 ^ placeIn format mantissa exponent := by
        rw [← zpow_natCast, ← zpow_natCast, ← zpow_add₀ two_ne_zero, ← zpow_add₀ two_ne_zero]
        exact zpow_le_zpow_right₀ one_le_two place

theorem roundsAt_placeIn (low : exponent ≤ placeIn format mantissa exponent)
    (holds : Holds (.ofMantissaAndAccuracy mantissa accuracy) x) :
    RoundsAt format (x * 2 ^ exponent) (roundedIn format mantissa exponent accuracy)
      (placeIn format mantissa exponent) where
  least := Int.le_max_right _ _
  full := or_iff_not_imp_left.mpr (full_placeIn low holds)
  short := short_placeIn holds
  nearest := by
    have shift : x * 2 ^ exponent / 2 ^ placeIn format mantissa exponent =
        x / 2 ^ (placeIn format mantissa exponent - exponent).toNat := by
      rw [div_eq_div_iff (by positivity) (by positivity), mul_assoc, ← zpow_natCast,
        ← zpow_add₀ two_ne_zero]
      congr 2
      omega
    rw [shift]
    exact (holds.shiftRight _).isNearestEven

theorem shiftToTargetExponent_eq (low : exponent ≤ placeIn format mantissa exponent) :
    shiftToTargetExponent format mantissa exponent accuracy =
      (ExtendedMantissa.ofMantissaAndAccuracy mantissa accuracy >>>
        (placeIn format mantissa exponent - exponent).toNat, placeIn format mantissa exponent) := by
  rw [placeIn] at low ⊢
  simp only [shiftToTargetExponent, shiftToExponent, Prod.mk.injEq, true_and]
  omega

/-- A carry makes a mantissa one bit too long, and that bit is zero. -/
theorem shiftToTargetExponent_rounded {rounded : Nat} {place : Int}
    (le : rounded ≤ 2 ^ format.mantissaBits) (least : format.minExponent ≤ place) :
    shiftToTargetExponent format rounded place .exact =
      if rounded < 2 ^ format.mantissaBits then (⟨rounded, false, false⟩, place)
      else (⟨2 ^ format.mantissaBitsWithoutImplicit, false, false⟩, place + 1) := by
  split
  case isTrue short =>
    have stays : placeIn format rounded place ≤ place := by
      have bits : rounded.log2 < format.mantissaBits := by
        by_cases vanishes : rounded = 0
        · simp [vanishes, Format.mantissaBits]
        · exact (Nat.log2_lt vanishes).mpr short
      simp only [placeIn, Format.targetExponent, totalExponent]
      omega
    have none : (format.targetExponent (totalExponent rounded place) - place).toNat = 0 := by
      rw [placeIn] at stays
      omega
    simp only [shiftToTargetExponent, shiftToExponent, none, Int.natCast_zero, Int.add_zero]
    rfl
  case isFalse long =>
    obtain rfl := Nat.le_antisymm le (Nat.le_of_not_lt long)
    have moves : placeIn format (2 ^ format.mantissaBits) place = place + 1 := by
      simp only [placeIn, Format.targetExponent, totalExponent, Nat.log2_two_pow]
      omega
    have once : (placeIn format (2 ^ format.mantissaBits) place - place).toNat = 1 := by omega
    rw [shiftToTargetExponent_eq (by omega), once, moves, two_pow_mantissaBits, Nat.mul_comm]
    exact congrArg (·, place + 1) (shiftRight_exact _ 1)

theorem settles_roundWithAccuracy (sign : Sign)
    (low : exponent ≤ placeIn format mantissa exponent)
    (le : roundedIn format mantissa exponent accuracy ≤ 2 ^ format.mantissaBits) :
    Settles format sign (roundedIn format mantissa exponent accuracy)
      (placeIn format mantissa exponent)
      (roundWithAccuracy format sign mantissa exponent accuracy) := by
  have rounded : (ExtendedMantissa.ofMantissaAndAccuracy mantissa accuracy >>>
      (placeIn format mantissa exponent - exponent).toNat).roundedMantissa =
        roundedIn format mantissa exponent accuracy := rfl
  have least : format.minExponent ≤ placeIn format mantissa exponent := Int.le_max_right _ _
  unfold roundWithAccuracy
  simp only [shiftToTargetExponent_eq low, rounded, shiftToTargetExponent_rounded le least]
  split
  case isTrue short =>
    dsimp only
    split
    case isTrue vanishes => exact .zero vanishes
    case isFalse => exact .kept short
  case isFalse long =>
    dsimp only
    rw [dif_neg (Nat.two_pow_pos _).ne']
    exact .carried (Nat.le_antisymm le (Nat.le_of_not_lt long))

/-- Rounding is correct, if the mantissa has at least the bits that are kept. -/
theorem roundsTo_roundWithAccuracy (wide : format.minExponent ≤ highestExponent format)
    (sign : Sign) (low : exponent ≤ placeIn format mantissa exponent)
    (holds : Holds (.ofMantissaAndAccuracy mantissa accuracy) x) :
    RoundsTo format sign ((sign.apply 1 : ℤ) * (x * 2 ^ exponent))
      (unpack format (pack format (roundWithAccuracy format sign mantissa exponent accuracy))) := by
  have rounds := roundsAt_placeIn low holds
  have nonneg : (0 : ℚ) ≤ x := le_trans (by positivity) holds.le_of_accuracy
  exact (settles_roundWithAccuracy sign low rounds.rounded_le).roundsTo rounds (by positivity) wide

end Rounding

end Troupe.Number
