import Mathlib
import Troupe.Proofs.Number.Finite
import Troupe.Proofs.Number.Single

/-! # Remainders and angles in one turn

The remainder by a whole number is exact: it has no place below the last one of the number, and no
more bits. An angle brought to one turn is the exact one rounded once, where a turn is added to a
negative remainder. That can give the whole turn: angles that are less than half a place below a
multiple of it are nearer to that than to any number below.

* `value_remainder` — the remainder.
* `withinTurn` — an angle in `[0, 360)`.
* `isNearest_wrapDegrees` — an angle brought to one turn is the nearest one.
* `wrapDegrees_lt_iff` — angles that are less than the whole turn.
-/

namespace Troupe.Number

open Float.Model (UnpackedFloat Format)
open Float.Model.UnpackedFloat

variable {x : Float32}

/-! ## Exact remainders -/

theorem round_zero (format : Format) (sign : Sign) (exponent : Int) :
    UnpackedFloat.round format sign 0 exponent = .zero sign := by
  have shifted (count : Nat) :
      (ExtendedMantissa.ofMantissaAndAccuracy 0 .exact) >>> count = ⟨0, false, false⟩ := by
    have same := shiftRight_exact 0 count
    rwa [Nat.zero_mul] at same
  have rounded : (⟨0, false, false⟩ : ExtendedMantissa).roundedMantissa = 0 := rfl
  simp only [UnpackedFloat.round, decreaseExponent, Nat.zero_shiftLeft, roundWithAccuracy,
    shiftToTargetExponent, shiftToExponent, shifted, rounded, dite_true]

theorem isRounded_round (sign : Sign) (mantissa : Nat) (exponent : Int) :
    IsRounded (ofFields32 (UnpackedFloat.round .binary32 sign mantissa exponent))
      ((sign.apply mantissa : ℤ) * 2 ^ exponent) := by
  change ∃ sign', RoundsTo .binary32 sign' _ (unpack .binary32 (pack .binary32 _))
  rcases Nat.eq_zero_or_pos mantissa with rfl | positive
  · have none : (sign.apply 0 : ℤ) = 0 := by cases sign <;> rfl
    rw [round_zero, Int.ofNat_zero, none, Int.cast_zero, zero_mul]
    exact IsRepresented.zero.exists_roundsTo wide_binary32
  · have rounds := roundsTo_round wide_binary32 sign positive exponent
    rw [signed_apply]
    exact ⟨sign, by rwa [mul_assoc]⟩

/-- What is represented is not changed, with either sign. -/
theorem value_round_of_short (sign : Sign) {mantissa : Nat} {exponent : Int}
    (short : mantissa < 2 ^ 24) (least : -149 ≤ exponent) (low : exponent ≤ 104) :
    (ofFields32 (UnpackedFloat.round .binary32 sign mantissa exponent)).isFinite = true ∧
      value (ofFields32 (UnpackedFloat.round .binary32 sign mantissa exponent)) =
        (sign.apply 1 : ℤ) * (mantissa * 2 ^ exponent) := by
  obtain ⟨fields, represented, same⟩ := @exists_isRepresented .binary32 mantissa exponent short
    least low
  have rounded := isRounded_round sign mantissa exponent
  rw [signed_apply, mul_assoc, ← same] at rounded
  rw [← same]
  cases sign with
  | positive =>
    rw [Sign.apply, Int.cast_one, one_mul] at rounded ⊢
    exact rounded.exact represented
  | negative =>
    rw [Sign.apply, Int.cast_neg, Int.cast_one, neg_one_mul, ← valueOf_neg] at rounded ⊢
    exact rounded.exact represented.neg

theorem cast_powerOfTwo (count : Nat) : (powerOfTwo count : ℚ) = 2 ^ count :=
  Nat.cast_pow 2 count

section Remainder

variable {n : Nat} (positive : 0 < n)

include positive

theorem mul_fract_div_of_nonneg (mantissa : Nat) {exponent : Int} (nonneg : 0 ≤ exponent) :
    (n : ℚ) * Int.fract ((mantissa : ℚ) * 2 ^ exponent / n) =
      (mantissa * powerOfTwo exponent.toNat % n : ℕ) * 2 ^ (0 : ℤ) := by
  have whole : (mantissa : ℚ) * 2 ^ exponent = (mantissa * powerOfTwo exponent.toNat : ℕ) := by
    rw [Nat.cast_mul, cast_powerOfTwo, ← zpow_natCast, Int.toNat_of_nonneg nonneg]
  have some : (n : ℚ) ≠ 0 := by exact_mod_cast positive.ne'
  rw [whole, Int.fract_div_natCast_eq_div_natCast_mod]
  field_simp

theorem mul_fract_div_of_neg (mantissa : Nat) {exponent : Int} (negative : exponent < 0) :
    (n : ℚ) * Int.fract ((mantissa : ℚ) * 2 ^ exponent / n) =
      (mantissa % (n * powerOfTwo (-exponent).toNat) : ℕ) * 2 ^ exponent := by
  obtain ⟨count, rfl⟩ : ∃ count : Nat, exponent = -count := ⟨(-exponent).toNat, by omega⟩
  have shift : (- -(count : Int)).toNat = count := by omega
  have quotient : (mantissa : ℚ) * 2 ^ (-(count : ℤ)) / n = mantissa / (n * 2 ^ count : ℕ) := by
    rw [zpow_neg, zpow_natCast]
    push_cast
    field_simp
  have some : (n : ℚ) ≠ 0 := by exact_mod_cast positive.ne'
  rw [shift, quotient, Int.fract_div_natCast_eq_div_natCast_mod, zpow_neg, zpow_natCast]
  push_cast
  field_simp
  rfl

/-- The remainder of a magnitude, as it is rounded. -/
theorem exists_remainder (sign : Sign) {mantissa : Nat} {exponent : Int} (small : n ≤ 2 ^ 24)
    (short : mantissa < 2 ^ 24) (least : -149 ≤ exponent) (low : exponent ≤ 104) :
    ∃ (rest : Nat) (place : Int),
      (if 0 ≤ exponent then
        UnpackedFloat.round .binary32 sign (mantissa * powerOfTwo exponent.toNat % n) 0
      else
        UnpackedFloat.round .binary32 sign (mantissa % (n * powerOfTwo (-exponent).toNat))
          exponent) = UnpackedFloat.round .binary32 sign rest place ∧
      (rest < 2 ^ 24 ∧ -149 ≤ place ∧ place ≤ 104) ∧
      (rest : ℚ) * 2 ^ place = n * Int.fract ((mantissa : ℚ) * 2 ^ exponent / n) := by
  split
  case isTrue nonneg =>
    exact ⟨_, 0, rfl, ⟨(Nat.mod_lt _ positive).trans_le small, by decide, by decide⟩,
      (mul_fract_div_of_nonneg positive mantissa nonneg).symm⟩
  case isFalse negative =>
    exact ⟨_, exponent, rfl, ⟨(Nat.mod_le _ _).trans_lt short, least, low⟩,
      (mul_fract_div_of_neg positive mantissa (not_le.mp negative)).symm⟩

/-- The remainder of a finite number, with its sign. -/
theorem value_remainder (finite : x.isFinite = true) (small : n ≤ 2 ^ 24) :
    (remainder x n).isFinite = true ∧ value (remainder x n) =
      if 0 ≤ value x then n * Int.fract (value x / n) else -(n * Int.fract (-value x / n)) := by
  have canonical := canonical_of_isFinite finite
  unfold remainder value
  generalize fields32 x = fields at canonical
  cases canonical with
  | @zero sign =>
    refine ⟨isFinite_ofFields32 .zero, ?_⟩
    rw [fields32_ofFields32 .zero]
    simp [valueOf]
  | @finite sign mantissa exponent some short least low full =>
    obtain ⟨rest, place, same, ⟨short', least', low'⟩, exact⟩ :=
      exists_remainder positive sign small short least low
    obtain ⟨kept, rounded⟩ := value_round_of_short sign short' least' low'
    dsimp only
    rw [same]
    refine ⟨kept, ?_⟩
    change value _ = _
    rw [rounded, exact]
    cases sign with
    | positive =>
      have above : 0 ≤ valueOf (.finite .positive mantissa exponent some) :=
        valueOf_positive_pos.le
      rw [if_pos above, valueOf_positive, Sign.apply, Int.cast_one, one_mul]
    | negative =>
      have below : ¬ 0 ≤ valueOf (.finite .negative mantissa exponent some) :=
        not_le.mpr valueOf_negative_neg
      rw [if_neg below, valueOf_negative, neg_neg, Sign.apply, Int.cast_neg, Int.cast_one,
        neg_one_mul]

end Remainder

/-! ## One turn -/

/-- An angle in degrees, without its whole turns. -/
def withinTurn (degrees : ℚ) : ℚ :=
  360 * Int.fract (degrees / 360)

theorem withinTurn_nonneg (degrees : ℚ) : 0 ≤ withinTurn degrees :=
  mul_nonneg (by norm_num) (Int.fract_nonneg _)

theorem withinTurn_lt (degrees : ℚ) : withinTurn degrees < 360 := by
  have below := Int.fract_lt_one (degrees / 360)
  unfold withinTurn
  linarith

theorem withinTurn_neg {degrees : ℚ} (some : withinTurn degrees ≠ 0) :
    withinTurn (-degrees) = 360 - withinTurn degrees := by
  have rest : Int.fract (degrees / 360) ≠ 0 := right_ne_zero_of_mul some
  rw [withinTurn, neg_div, Int.fract_neg rest, withinTurn]
  ring

theorem withinTurn_neg_eq_zero {degrees : ℚ} (none : withinTurn degrees = 0) :
    withinTurn (-degrees) = 0 := by
  have rest : Int.fract (degrees / 360) = 0 :=
    (mul_eq_zero.mp none).resolve_left (by norm_num)
  rw [withinTurn, neg_div, Int.fract_neg_eq_zero.mpr rest, mul_zero]

theorem value_fullTurn : value 360 = 360 := by
  have fields : fields32 360 = .finite .positive 11796480 (-15) (by decide) := rfl
  rw [value, fields, valueOf_positive]
  norm_num

section OneTurn

variable (finite : x.isFinite = true)

include finite

/-- An angle brought to one turn is the nearest one. -/
theorem isNearest_wrapDegrees :
    IsNearest .binary32 (withinTurn (value x)) (fields32 (wrapDegrees x)) := by
  obtain ⟨kept, rest⟩ := value_remainder (n := 360) (by decide) finite (by decide)
  have zero : value 0 = 0 := rfl
  push_cast at rest
  have sign := lt_iff_value (y := 0) kept (by decide)
  rw [zero] at sign
  unfold wrapDegrees
  dsimp only
  split at rest
  case isTrue nonneg =>
    rw [← withinTurn] at rest
    have least := withinTurn_nonneg (value x)
    rw [if_neg (mt sign.mp (by linarith)), ← rest]
    exact (isRepresented_of_isFinite kept).isNearest
  case isFalse negative =>
    rw [← withinTurn] at rest
    have least := withinTurn_nonneg (-value x)
    have most := withinTurn_lt (-value x)
    rcases eq_or_ne (withinTurn (-value x)) 0 with none | some
    -- whole turns leave a negative zero, to which nothing is added
    · have whole := withinTurn_neg_eq_zero none
      rw [neg_neg] at whole
      rw [none, neg_zero] at rest
      rw [if_neg (mt sign.mp (by linarith)), whole, ← rest]
      exact (isRepresented_of_isFinite kept).isNearest
    -- the turn that is added makes the sum the angle within the turn, and the sum is rounded
    · have whole := withinTurn_neg some
      rw [neg_neg] at whole
      have positive := lt_of_le_of_ne least some.symm
      have rounded := isRounded_add kept (by decide : (360 : Float32).isFinite = true)
      rw [value_fullTurn, rest, neg_add_eq_sub, ← whole] at rounded
      rw [if_pos (sign.mpr (by linarith))]
      refine rounded.isNearest (rounded.isFinite_iff.mpr ?_)
      rw [whole, abs_of_pos (by linarith)]
      norm_num
      linarith

theorem isFinite_wrapDegrees : (wrapDegrees x).isFinite = true :=
  (isNearest_wrapDegrees finite).represented.isFinite

theorem nonneg_wrapDegrees : 0 ≤ wrapDegrees x := by
  have zero : value 0 = valueOf (.zero .positive) := rfl
  rw [le_iff_value (by decide) (isFinite_wrapDegrees finite), zero]
  exact IsRepresented.zero.isNearest.le_of_le wide_binary32 (isNearest_wrapDegrees finite)
    (withinTurn_nonneg _)

theorem wrapDegrees_le : wrapDegrees x ≤ 360 := by
  have turn := (isRepresented_of_isFinite (x := 360) (by decide)).isNearest
  rw [le_iff_value (isFinite_wrapDegrees finite) (by decide)]
  refine (isNearest_wrapDegrees finite).le_of_le wide_binary32 turn ?_
  rw [← value, value_fullTurn]
  exact (withinTurn_lt _).le

theorem value_wrapDegrees_le_of_lt (below : value (wrapDegrees x) < 360) :
    value (wrapDegrees x) ≤ 360 - 1 / 2 ^ 15 := by
  have least := nonneg_wrapDegrees finite
  rw [le_iff_value (by decide) (isFinite_wrapDegrees finite), show value 0 = 0 from rfl] at least
  have most : |value (wrapDegrees x)| ≤ (11796480 - 1) * 2 ^ (-15 : ℤ) :=
    (isNearest_wrapDegrees finite).represented.abs_le_pred 11796480 (-15) wide_binary32
      (by decide) (by
        rw [← value, abs_of_nonneg least]
        norm_num
        exact below)
  rw [abs_of_nonneg least] at most
  norm_num at most ⊢
  exact most

/-- The number below the whole turn has an odd mantissa, so the middle goes to the turn. -/
theorem wrapDegrees_lt_iff : wrapDegrees x < 360 ↔ withinTurn (value x) < 360 - 1 / 2 ^ 16 := by
  have nearest := isNearest_wrapDegrees finite
  have pred : IsRepresented .binary32 (.finite .positive 11796479 (-15) (by decide)) :=
    .finite (by decide) (by decide) (by decide) (.inl (by decide))
  have place : valueOf (.finite .positive 11796479 (-15) (by decide)) = 360 - 1 / 2 ^ 15 := by
    rw [valueOf_positive]
    norm_num
  rw [lt_iff_value (isFinite_wrapDegrees finite) (by decide), value_fullTurn]
  constructor
  · intro below
    by_contra! middle
    have most := value_wrapDegrees_le_of_lt finite below
    have within := withinTurn_lt (value x)
    have turn := isRepresented_of_isFinite (x := 360) (by decide)
    have close := nearest.closest _ turn
    rw [← value, ← value, value_fullTurn, abs_of_nonpos (by linarith),
      abs_of_pos (by linarith)] at close
    -- nothing but the number below the turn is left, and the turn is as near
    have same : value (wrapDegrees x) = 360 - 1 / 2 ^ 15 := by linarith
    have tie : |value 360 - withinTurn (value x)| =
        |value (wrapDegrees x) - withinTurn (value x)| := by
      rw [value_fullTurn, abs_of_pos (by linarith), abs_of_nonpos (by linarith)]
      linarith
    have even := nearest.even _ turn tie (by
      rw [← value, ← value, value_fullTurn]
      exact below.ne')
    rw [nearest.represented.eq_of_valueOf_ne_zero pred (by rw [place, ← same, value])
      (by rw [← value, same]; norm_num)] at even
    exact absurd (show Even 11796479 from even) (by decide)
  · intro middle
    exact nearest.lt_of_lt_middle pred (by rw [place]; norm_num) (by rw [place]; linarith)

end OneTurn

end Troupe.Number
