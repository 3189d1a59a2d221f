import Mathlib
import Troupe.Decimal.Shortest
import Troupe.Proofs.Decimal.Rounding

/-! # The decimals that round to a number

The interval around a number reaches halfway to its neighbours, so what lies in it is rounded to that
number. The shortest decimal lies in it: a point is taken from a grid only if it does, and on the
finest grid the number itself is a point.

* `Neighbourhood.Encloses` — the interval as a set of rational numbers.
* `Neighbourhood.roundsTo_of_encloses` — what lies in it is rounded to its centre.
* `Neighbourhood.encloses_shortest` — the shortest decimal lies in it.
-/

namespace Troupe.Decimal.Neighbourhood

open Float.Model (UnpackedFloat Format)
open Float.Model.UnpackedFloat
open Troupe.Number

/-! ## Points -/

section Points

variable {n : Neighbourhood} {digits bound : Nat} {k : Int}

/-- The ends belong to the interval if it is closed. -/
def Encloses (n : Neighbourhood) (q : ℚ) : Prop :=
  if n.closed then n.low * 2 ^ n.scale ≤ q ∧ q ≤ n.high * 2 ^ n.scale
  else n.low * 2 ^ n.scale < q ∧ q < n.high * 2 ^ n.scale

/-- A power is a quotient of powers with natural exponents. -/
theorem zpow_eq_mul_of_pos {base : ℚ} (positive : 0 < base) (k : Int) :
    base ^ k.toNat = base ^ k * base ^ (-k).toNat := by
  rw [← zpow_natCast, ← zpow_natCast, ← zpow_add₀ positive.ne']
  congr 1
  omega

/-- A factor turns multiples of the two powers into whole numbers. -/
theorem exists_scale (n : Neighbourhood) (k : Int) :
    ∃ scale : ℚ, 0 < scale ∧ (n.gridFactor k : ℚ) = 2 ^ n.scale * scale ∧
      (n.gridDivisor k : ℚ) = 10 ^ k * scale := by
  have two (places : Nat) : ((powerOfTwo places : Nat) : ℚ) = 2 ^ places := Nat.cast_pow 2 places
  have ten (places : Nat) : ((powerOfTen places : Nat) : ℚ) = 10 ^ places :=
    Nat.cast_pow 10 places
  refine ⟨2 ^ (-n.scale).toNat * 10 ^ (-k).toNat, by positivity, ?_, ?_⟩
  · rw [gridFactor, Nat.cast_mul, two, ten, zpow_eq_mul_of_pos two_pos]
    ring
  · rw [gridDivisor, Nat.cast_mul, two, ten, zpow_eq_mul_of_pos (by norm_num) k]
    ring

theorem contains_iff : n.contains digits k = true ↔ n.Encloses (digits * 10 ^ k) := by
  obtain ⟨scale, positive, factor, divisor⟩ := n.exists_scale k
  have point : ((digits * n.gridDivisor k : Nat) : ℚ) = digits * 10 ^ k * scale := by
    rw [Nat.cast_mul, divisor, mul_assoc]
  have ends (bound : Nat) :
      ((bound * n.gridFactor k : Nat) : ℚ) = bound * 2 ^ n.scale * scale := by
    rw [Nat.cast_mul, factor, mul_assoc]
  unfold contains Encloses
  cases n.closed <;>
    simp only [Bool.false_eq_true, if_false, if_true, Bool.and_eq_true, decide_eq_true_eq,
      ← Nat.cast_le (α := ℚ), ← Nat.cast_lt (α := ℚ), point, ends,
      mul_le_mul_iff_left₀ positive, mul_lt_mul_iff_left₀ positive]

end Points

/-! ## The interval of a number -/

section Interval

variable {sign : Sign} {mantissa : Nat} {exponent : Int} {positive : 0 < mantissa} {q : ℚ}

/-- The quarters of the last place between a number and the lower end of its interval. -/
def reach (mantissa : Nat) (exponent : Int) : Nat :=
  if mantissa = 2 ^ 52 ∧ -1074 < exponent then 1 else 2

theorem reach_le (mantissa : Nat) (exponent : Int) : reach mantissa exponent ≤ 2 := by
  unfold reach
  split <;> decide

theorem low_of (positive : 0 < mantissa) (exponent : Int) :
    ((Neighbourhood.of mantissa exponent).low : ℚ) * 2 ^ (exponent - 2) =
      (mantissa - reach mantissa exponent / 4) * 2 ^ exponent := by
  have below : ((Neighbourhood.of mantissa exponent).low : ℚ) =
      4 * mantissa - reach mantissa exponent := by
    have le := reach_le mantissa exponent
    change ((4 * mantissa - reach mantissa exponent : Nat) : ℚ) = _
    rw [Nat.cast_sub (by omega)]
    push_cast
    rfl
  rw [below, zpow_sub₀ two_ne_zero]
  ring

theorem high_of (mantissa : Nat) (exponent : Int) :
    ((Neighbourhood.of mantissa exponent).high : ℚ) * 2 ^ (exponent - 2) =
      (mantissa + 1 / 2) * 2 ^ exponent := by
  have above : ((Neighbourhood.of mantissa exponent).high : ℚ) = 4 * mantissa + 2 := by
    change ((4 * mantissa + 2 : Nat) : ℚ) = _
    push_cast
    rfl
  rw [above, zpow_sub₀ two_ne_zero]
  ring

/-- The interval in last places of the number. -/
theorem encloses_of_iff (positive : 0 < mantissa) :
    (Neighbourhood.of mantissa exponent).Encloses q ↔
      let low : ℚ := mantissa - reach mantissa exponent / 4
      let high : ℚ := mantissa + 1 / 2
      if mantissa % 2 = 0 then low ≤ q / 2 ^ exponent ∧ q / 2 ^ exponent ≤ high
      else low < q / 2 ^ exponent ∧ q / 2 ^ exponent < high := by
  have scale : (0 : ℚ) < 2 ^ exponent := by positivity
  have shown : (Neighbourhood.of mantissa exponent).scale = exponent - 2 := rfl
  have closed : (Neighbourhood.of mantissa exponent).closed = decide (mantissa % 2 = 0) := rfl
  simp only [Encloses, shown, closed, low_of positive, high_of, decide_eq_true_eq,
    le_div_iff₀ scale, div_le_iff₀ scale, lt_div_iff₀ scale, div_lt_iff₀ scale]

/-- A number lies in its own interval. -/
theorem encloses_centre (positive : 0 < mantissa) :
    (Neighbourhood.of mantissa exponent).Encloses (mantissa * 2 ^ exponent) := by
  have some : (0 : ℚ) < reach mantissa exponent := by
    unfold reach
    split <;> norm_num
  rw [encloses_of_iff positive, mul_div_cancel_right₀ _ (by positivity)]
  dsimp only
  split
  · constructor <;> linarith
  · constructor <;> linarith

theorem Encloses.within (encloses : (Neighbourhood.of mantissa exponent).Encloses q)
    (positive : 0 < mantissa) :
    (mantissa : ℚ) - reach mantissa exponent / 4 ≤ q / 2 ^ exponent ∧
      q / 2 ^ exponent ≤ mantissa + 1 / 2 := by
  rw [encloses_of_iff positive] at encloses
  dsimp only at encloses
  split at encloses
  case isTrue => exact encloses
  case isFalse => exact ⟨encloses.1.le, encloses.2.le⟩

/-- What lies in the interval is nearest to the number among the multiples of its last place. -/
theorem Encloses.isNearestEven (encloses : (Neighbourhood.of mantissa exponent).Encloses q)
    (positive : 0 < mantissa) : IsNearestEven mantissa (q / 2 ^ exponent) := by
  have most : (reach mantissa exponent : ℚ) ≤ 2 := by exact_mod_cast reach_le mantissa exponent
  rw [encloses_of_iff positive] at encloses
  dsimp only at encloses
  split at encloses
  case isTrue even =>
    refine ⟨?_, fun _ => Nat.even_iff.mpr even⟩
    rw [abs_le]
    constructor <;> linarith
  case isFalse =>
    refine .of_lt ?_
    rw [abs_lt]
    constructor <;> linarith

/-- Of the least number with all bits in use, the neighbour below is only half a place away, and
    what lies nearer than that is rounded to places of that size, and carried. -/
theorem roundsAt_of_lt (above : -1074 < exponent) (near : (2 : ℚ) ^ 52 - 1 / 4 ≤ q / 2 ^ exponent)
    (less : q / 2 ^ exponent < 2 ^ 52) : RoundsAt .binary64 q (2 ^ 53) (exponent - 1) := by
  have least : Format.binary64.minExponent = -1074 := by decide
  have bits : Format.binary64.mantissaBitsWithoutImplicit = 52 := rfl
  have bits' : Format.binary64.mantissaBits = 53 := rfl
  have twice : q / 2 ^ (exponent - 1) = 2 * (q / 2 ^ exponent) := by
    rw [zpow_sub_one₀ two_ne_zero]
    field_simp
  refine ⟨by omega, .inr ?_, ?_, ⟨?_, fun _ => even_two.pow_of_ne_zero (by decide)⟩⟩
  · rw [bits, twice]
    linarith
  · rw [bits', twice]
    linarith
  · rw [twice, abs_le]
    push_cast
    constructor <;> linarith

/-- Everything in the interval of a number is rounded to it. -/
theorem roundsTo_of_encloses
    (represented : IsRepresented .binary64 (.finite sign mantissa exponent positive))
    (encloses : (Neighbourhood.of mantissa exponent).Encloses q) :
    RoundsTo .binary64 sign ((sign.apply 1 : ℤ) * q) (.finite sign mantissa exponent positive) := by
  have nearest := encloses.isNearestEven positive
  obtain ⟨low, high⟩ := encloses.within positive
  have most : (reach mantissa exponent : ℚ) ≤ 2 := by exact_mod_cast reach_le mantissa exponent
  have one : (1 : ℚ) ≤ mantissa := by exact_mod_cast positive
  have nonneg : 0 ≤ q := by
    have some : 0 ≤ q / 2 ^ exponent := by linarith
    rw [le_div_iff₀ (by positivity), zero_mul] at some
    exact some
  rw [← unpack_pack represented]
  cases represented with
  | finite short least _ full =>
    have short' : (mantissa : ℚ) + 1 ≤ 2 ^ 53 := by exact_mod_cast short
    by_cases kept : exponent = -1074 ∨ 2 ^ 52 ≤ q / 2 ^ exponent
    · have below : q / 2 ^ exponent < 2 ^ 53 := by linarith
      have rounds : RoundsAt .binary64 q mantissa exponent := ⟨least, kept, below, nearest⟩
      exact (Settles.kept short).roundsTo rounds nonneg wide_binary64
    · obtain ⟨above, less⟩ := not_or.mp kept
      have above : -1074 < exponent := lt_of_le_of_ne least (Ne.symm above)
      have full : 2 ^ 52 ≤ mantissa := full.resolve_right above.ne'
      obtain rfl : mantissa = 2 ^ 52 := by
        refine le_antisymm (not_lt.mp fun more => less ?_) full
        have more : (2 : ℚ) ^ 52 + 1 ≤ mantissa := by exact_mod_cast more
        linarith
      have few : reach (2 ^ 52) exponent = 1 := if_pos ⟨rfl, above⟩
      rw [few] at low
      push_cast at low
      have settles : Settles .binary64 sign (2 ^ 53) (exponent - 1)
          (.finite sign (2 ^ 52) (exponent - 1 + 1) positive) := .carried rfl
      rw [Int.sub_add_cancel] at settles
      exact settles.roundsTo (roundsAt_of_lt above low (not_le.mp less)) nonneg wide_binary64

end Interval

/-! ## The shortest decimal -/

section Shortest

variable {n : Neighbourhood} {digits : Nat} {k : Int}

/-- A point is taken from a grid only if it lies in the interval. -/
theorem contains_of_onGrid? (found : n.onGrid? k = some digits) :
    n.contains digits k = true := by
  unfold onGrid? at found
  dsimp only at found
  split at found
  case h_1 below above =>
    split at found
    · exact Option.some.inj found ▸ below
    · exact Option.some.inj found ▸ above
  case h_2 below _ => exact Option.some.inj found ▸ below
  case h_3 _ above => exact Option.some.inj found ▸ above
  case h_4 => cases found

theorem gridFactor_eq (n : Neighbourhood) (k : Int) :
    n.gridFactor k = 2 ^ n.scale.toNat * 10 ^ (-k).toNat := rfl

theorem gridDivisor_dvd (fine : finestGrid ≤ n.scale) :
    n.gridDivisor finestGrid ∣ n.gridFactor finestGrid := by
  have few : (-n.scale).toNat ≤ (-finestGrid).toNat := by omega
  have twos : 2 ^ (-n.scale).toNat ∣ 10 ^ (-finestGrid).toNat :=
    (pow_dvd_pow 2 few).trans (pow_dvd_pow_of_dvd (by decide) _)
  have whole : n.gridDivisor finestGrid = 2 ^ (-n.scale).toNat := Nat.mul_one _
  rw [whole, gridFactor_eq]
  exact Dvd.dvd.mul_left twos _

/-- On the finest grid the number itself is a point. -/
theorem exact_on_finestGrid (fine : finestGrid ≤ n.scale) :
    ((n.centre * n.gridFactor finestGrid / n.gridDivisor finestGrid : Nat) : ℚ) * 10 ^ finestGrid =
      n.centre * 2 ^ n.scale := by
  obtain ⟨scale, positive, factor, divisor⟩ := n.exists_scale finestGrid
  have some : (n.gridDivisor finestGrid : ℚ) ≠ 0 := by
    rw [divisor]
    positivity
  rw [Nat.cast_div (Dvd.dvd.mul_left (gridDivisor_dvd fine) _) some, Nat.cast_mul, factor, divisor]
  field_simp

/-- The coarser grids are tried first, and the finest one has a point in any case. -/
theorem encloses_coarsest (fine : finestGrid ≤ n.scale)
    (encloses : n.Encloses (n.centre * 2 ^ n.scale)) (count : Nat) :
    n.Encloses ((n.coarsest count).1 * 10 ^ (n.coarsest count).2) := by
  induction count with
  | zero =>
    rw [coarsest, exact_on_finestGrid fine]
    exact encloses
  | succ count ih =>
    rw [coarsest]
    split
    case h_1 digits found => exact contains_iff.mp (contains_of_onGrid? found)
    case h_2 => exact ih

theorem encloses_shortest {mantissa : Nat} {exponent : Int} (positive : 0 < mantissa)
    (least : -1074 ≤ exponent) :
    (Neighbourhood.of mantissa exponent).Encloses
      ((Neighbourhood.of mantissa exponent).shortest.1 *
        10 ^ (Neighbourhood.of mantissa exponent).shortest.2) := by
  have scale : (Neighbourhood.of mantissa exponent).scale = exponent - 2 := rfl
  have centre : ((Neighbourhood.of mantissa exponent).centre : ℚ) * 2 ^ (exponent - 2) =
      mantissa * 2 ^ exponent := by
    have four : (Neighbourhood.of mantissa exponent).centre = 4 * mantissa := rfl
    rw [four, zpow_sub₀ two_ne_zero]
    push_cast
    ring
  refine encloses_coarsest ?_ ?_ gridCount
  · rw [scale, finestGrid]
    omega
  · rw [scale, centre]
    exact encloses_centre positive

end Shortest

end Troupe.Decimal.Neighbourhood
