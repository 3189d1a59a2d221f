import Troupe.Number.Trigonometry
import Troupe.Proofs.Number.Arithmetic

/-! # Results that are finite

Headings, angles and what is read from a parameter are finite whatever they come from: an angle
in radians is smaller than its degrees, sines and cosines lie between minus one and one, and a
parameter is held inside the finite range before it is rounded. The largest number in that range has
24 bits in double precision too, so rounding does not carry it out again.
-/

namespace Troupe.Number

open Float.Model (UnpackedFloat Format totalExponent)
open Float.Model.UnpackedFloat

/-! ## Finite numbers -/

theorem isFinite_zero : (0 : Float32).isFinite = true := by decide

theorem isNaN_of_isFinite {x : Float32} (finite : x.isFinite = true) : x.isNaN = false := by
  change (fields32 x).isFinite = true at finite
  change (fields32 x).isNaN = false
  cases fields : fields32 x with
  | notANumber => simp [fields, UnpackedFloat.isFinite] at finite
  | infinity | zero | finite => rfl

/-- Between two finite numbers everything is finite. -/
theorem isFinite_of_between {x low high : Float32} (finite : low.isFinite = true)
    (finite' : high.isFinite = true) (above : low ≤ x) (below : x ≤ high) : x.isFinite = true := by
  rw [le_iff_compare] at above below
  change (fields32 low).isFinite = true at finite
  change (fields32 high).isFinite = true at finite'
  change (fields32 x).isFinite = true
  generalize fields32 low = left at *
  generalize fields32 high = right at *
  cases fields : fields32 x with
  | zero | finite => rfl
  | notANumber =>
    obtain ⟨order, same, _⟩ := above
    rw [fields] at same
    cases left <;> cases same
  | infinity sign =>
    rw [fields] at above below
    obtain ⟨order, same, isLE⟩ := above
    obtain ⟨order', same', isLE'⟩ := below
    -- Infinities are beyond either end.
    cases sign with
    | positive =>
      cases right with
      | notANumber | infinity => cases finite'
      | zero | finite =>
        cases same'
        cases isLE'
    | negative =>
      cases left with
      | notANumber | infinity => cases finite
      | zero | finite =>
        cases same
        cases isLE

theorem isFinite_of_le {x y : Float32} (nonneg : 0 ≤ x) (le : x ≤ y) (finite : y.isFinite = true) :
    x.isFinite = true :=
  isFinite_of_between isFinite_zero finite nonneg le

/-! ## Angles -/

theorem isFinite_radians {degrees : Float32} (finite : degrees.isFinite = true) :
    (radians degrees).isFinite = true := by
  have factor : fields32 (.ofBits 0x3c8efa35) = .finite .positive 0x8efa35 (-29) (by decide) := rfl
  obtain ⟨sign, fits⟩ := fits_of_isFinite finite
  suffices Rounded sign 104 (mul .binary32 (fields32 degrees) (fields32 (.ofBits 0x3c8efa35)))
    from this.fits.isFinite
  rw [factor]
  generalize fields32 degrees = fields at fits
  cases fits with
  | zero => cases sign <;> exact .zero
  | @finite mantissa exponent _ short low =>
    -- The factor has 24 bits below the place of 1/32, so the product cannot be out of range.
    have bits : (mantissa * 0x8efa35).log2 ≤ 47 := log2_le_of_lt (by omega)
    cases sign with
    | positive | negative =>
      refine rounded_of_small ?_ ?_
      · omega
      · simp only [totalExponent]
        omega

/-- Whether sines and cosines of finite angles lie between minus one and one. -/
def Trigonometry.IsBounded [Trigonometry] : Prop :=
  ∀ angle : Float32, angle.isFinite = true →
    (-1 ≤ sine angle ∧ sine angle ≤ 1) ∧ (-1 ≤ cosine angle ∧ cosine angle ≤ 1)

theorem Trigonometry.IsBounded.isFinite [Trigonometry] (bounded : IsBounded) {angle : Float32}
    (finite : angle.isFinite = true) :
    (sine angle).isFinite = true ∧ (cosine angle).isFinite = true := by
  obtain ⟨⟨least, most⟩, least', most'⟩ := bounded angle finite
  exact ⟨isFinite_of_between (by decide) (by decide) least most,
    isFinite_of_between (by decide) (by decide) least' most'⟩

/-! ## The finite range -/

theorem isFinite_clamp_largest {x : Float32} (number : x.isNaN = false) :
    (clamp (-largest32) largest32 x).isFinite = true := by
  have largest : fields32 largest32 = .finite .positive (2 ^ 24 - 1) 104 (by decide) := rfl
  have least : fields32 (-largest32) = .finite .negative (2 ^ 24 - 1) 104 (by decide) := rfl
  unfold clamp
  by_cases below : x < -largest32
  · rw [if_pos below]
    decide
  · by_cases above : largest32 < x
    · rw [if_neg below, if_pos above]
      decide
    · rw [if_neg below, if_neg above]
      rw [lt_iff_compare, least] at below
      rw [lt_iff_compare, largest] at above
      change (fields32 x).isNaN = false at number
      change (fields32 x).isFinite = true
      cases fields : fields32 x with
      | notANumber => simp [fields, isNaN] at number
      | infinity sign =>
        rw [fields] at above below
        cases sign with
        | positive => exact absurd rfl above
        | negative => exact absurd rfl below
      | zero | finite => rfl

/-- The largest number of the range is among those that are not above it. -/
theorem rounded_round_of_le_largest {sign : Sign} {mantissa : Nat} {exponent : Int}
    (short : mantissa < 2 ^ 53)
    (le : exponent < 75 ∨ exponent = 75 ∧ mantissa ≤ (2 ^ 24 - 1) * 2 ^ 29) :
    Rounded sign 104 (UnpackedFloat.round .binary32 sign mantissa exponent) := by
  have bits : mantissa.log2 ≤ 52 := log2_le_of_lt short
  by_cases small : totalExponent mantissa exponent ≤ 127
  · exact rounded_round small
  · -- Rounding drops 29 bits, and they are zero if the 24 bits that stay are all ones.
    simp only [totalExponent] at small
    obtain rfl : exponent = 75 := by omega
    have full : mantissa.log2 = 52 := by omega
    have target : Format.binary32.targetExponent (totalExponent mantissa 75) = 104 := by
      simp only [targetExponent_binary32, totalExponent, full]
      decide
    have still : UnpackedFloat.round .binary32 sign mantissa 75 =
        roundWithAccuracy .binary32 sign mantissa 75 .exact := by
      simp only [UnpackedFloat.round, decreaseExponent, target]
      rfl
    have shifts : shiftToTargetExponent .binary32 mantissa 75 .exact =
        ((⟨mantissa, false, false⟩ : ExtendedMantissa) >>> 29, 104) := by
      simp only [shiftToTargetExponent, shiftToExponent, target]
      rfl
    rw [still]
    refine rounded_of_total_le (Int.le_of_eq (congrArg Prod.snd shifts)) ?_
    have kept :
        (shiftToTargetExponent .binary32 mantissa 75 .exact).1.roundedMantissa < 2 ^ 24 := by
      rw [shifts]
      dsimp only
      by_cases ones : mantissa = (2 ^ 24 - 1) * 2 ^ 29
      · rw [ones, shiftRight_exact]
        decide
      · have up := roundedMantissa_le ((⟨mantissa, false, false⟩ : ExtendedMantissa) >>> 29)
        rw [mantissa_shiftRight] at up
        dsimp only at up
        omega
    have last := log2_le_of_lt kept
    simp only [totalExponent]
    rw [shifts] at last ⊢
    dsimp only at last ⊢
    omega

theorem lt64_iff_compare (x y : Float) :
    x < y ↔ (fields64 x).compare (fields64 y) = some .lt := by
  change x.lt y = true ↔ _
  simp only [Float.lt, decide_eq_true_eq]
  change ((fields64 x).compare (fields64 y) == some .lt) = true ↔ _
  exact beq_iff_eq

theorem isFinite_narrow {x : Float} (finite : x.isFinite = true) (below : ¬ largest64 < x)
    (above : ¬ x < -largest64) : (narrow x).isFinite = true := by
  have largest : fields64 largest64 = .finite .positive ((2 ^ 24 - 1) * 2 ^ 29) 75 (by decide) :=
    rfl
  have least : fields64 (-largest64) = .finite .negative ((2 ^ 24 - 1) * 2 ^ 29) 75 (by decide) :=
    rfl
  rw [lt64_iff_compare, largest] at below
  rw [lt64_iff_compare, least] at above
  change (fields64 x).isFinite = true at finite
  suffices ∃ sign, Rounded sign 104 (roundFields .binary32 (fields64 x)) from
    this.elim fun _ rounded => rounded.fits.isFinite
  cases fields : fields64 x with
  | notANumber | infinity => simp [fields, isFinite] at finite
  | zero sign => exact ⟨sign, .zero⟩
  | finite sign mantissa exponent positive =>
    have short : mantissa < 2 ^ 53 := mantissa_lt_of_unpack fields
    rw [fields] at below above
    refine ⟨sign, rounded_round_of_le_largest short ?_⟩
    cases sign with
    | positive =>
      rw [compare_positive_eq_lt] at below
      omega
    | negative =>
      rw [compare_negative, compare_positive_eq_lt] at above
      omega

theorem isFinite_saturate {x : Float} (finite : x.isFinite = true) :
    (saturate x).isFinite = true := by
  unfold saturate clamp
  by_cases below : x < -largest64
  · rw [if_pos below]
    decide +kernel
  · by_cases above : largest64 < x
    · rw [if_neg below, if_pos above]
      decide +kernel
    · rw [if_neg below, if_neg above]
      exact isFinite_narrow finite above below

end Troupe.Number
