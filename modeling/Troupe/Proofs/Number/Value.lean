import Mathlib
import Troupe.Proofs.Number.Order
import Troupe.Proofs.Number.Representation

/-! # The values of numbers

A finite number stands for a rational one. In single precision it has one representation: as many
bits as fit, unless its exponent is the least there is. So packing does not change it, and the
order of numbers, which looks at exponents first, is the order of their values.

* `value` — the rational number that a finite number stands for.
* `Canonical` — the one representation of a finite number.
* `fields32_ofFields32` — packing keeps it.
* `lt_iff_value`, `le_iff_value` — the order.
-/

namespace Troupe.Number

open Float.Model (UnpackedFloat Format)
open Float.Model.UnpackedFloat

/-- The rational number that fields stand for; zero for infinities and `NaN`. -/
def valueOf : UnpackedFloat → ℚ
  | .finite sign mantissa exponent _ => (sign.apply mantissa : ℤ) * 2 ^ exponent
  | _ => 0

def value (x : Float32) : ℚ :=
  valueOf (fields32 x)

/-! ## Representations -/

/-- The representation of a zero or a finite number in single precision. -/
inductive Canonical : UnpackedFloat → Prop
  | zero {sign : Sign} : Canonical (.zero sign)
  | finite {sign : Sign} {mantissa : Nat} {exponent : Int} {positive : 0 < mantissa}
      (short : mantissa < 2 ^ 24) (least : -149 ≤ exponent) (low : exponent ≤ 104)
      (full : 2 ^ 23 ≤ mantissa ∨ exponent = -149) :
      Canonical (.finite sign mantissa exponent positive)

variable {fields : UnpackedFloat} {sign : Sign} {mantissa : Nat} {exponent : Int}
  {positive : 0 < mantissa} {x y : Float32}

theorem Canonical.isFinite (canonical : Canonical fields) : fields.isFinite = true := by
  cases canonical <;> rfl

theorem canonical_iff_isRepresented : Canonical fields ↔ IsRepresented .binary32 fields := by
  have least : Format.binary32.minExponent = -149 := by decide
  have highest : highestExponent .binary32 = 104 := by decide
  constructor
  · rintro (_ | ⟨short, least', low, full⟩)
    · exact .zero
    · exact .finite short (least ▸ least') (highest ▸ low) (least ▸ full)
  · rintro (_ | ⟨short, least', low, full⟩)
    · exact .zero
    · exact .finite short (least ▸ least') (highest ▸ low) (least ▸ full)

theorem canonical_of_isFinite (finite : x.isFinite = true) : Canonical (fields32 x) :=
  canonical_iff_isRepresented.mpr (isRepresented_unpack (by decide) finite)

theorem fields32_ofFields32 (canonical : Canonical fields) :
    fields32 (ofFields32 fields) = fields :=
  unpack_pack (canonical_iff_isRepresented.mp canonical)

theorem isFinite_ofFields32 (canonical : Canonical fields) :
    (ofFields32 fields).isFinite = true := by
  change (fields32 (ofFields32 fields)).isFinite = true
  rw [fields32_ofFields32 canonical]
  exact canonical.isFinite

theorem value_ofFields32 (canonical : Canonical fields) :
    value (ofFields32 fields) = valueOf fields := by
  rw [value, fields32_ofFields32 canonical]

/-! ## Order -/

theorem valueOf_positive :
    valueOf (.finite .positive mantissa exponent positive) = mantissa * 2 ^ exponent := rfl

theorem valueOf_negative :
    valueOf (.finite .negative mantissa exponent positive) = -(mantissa * 2 ^ exponent) := by
  simp [valueOf, Sign.apply]

theorem value_one : value 1 = 1 := by
  have one : fields32 1 = .finite .positive (2 ^ 23) (-23) (by decide) := rfl
  rw [value, one, valueOf_positive]
  norm_num

theorem valueOf_neg (fields : UnpackedFloat) : valueOf fields.neg = -valueOf fields := by
  cases fields with
  | notANumber | infinity | zero => exact neg_zero.symm
  | finite sign =>
    cases sign with
    | positive => exact valueOf_negative
    | negative => exact (neg_eq_iff_eq_neg.mpr valueOf_negative).symm

theorem valueOf_positive_pos : 0 < valueOf (.finite .positive mantissa exponent positive) := by
  rw [valueOf_positive]
  positivity

theorem valueOf_negative_neg : valueOf (.finite .negative mantissa exponent positive) < 0 := by
  rw [valueOf_negative, neg_lt_zero]
  positivity

variable {format : Format} {other : UnpackedFloat} {significand full : Nat} {power least : Int}
  {positive' : 0 < significand}

/-- A number with a greater exponent has all its bits. -/
theorem lt_of_exponent_lt (short : mantissa < 2 * full) (long : full ≤ significand)
    (below : exponent < power) :
    (mantissa : ℚ) * 2 ^ exponent < significand * 2 ^ power := by
  have twice : (2 : ℚ) * 2 ^ exponent ≤ 2 ^ power := by
    rw [← zpow_one_add₀ two_ne_zero]
    exact zpow_le_zpow_right₀ (by norm_num) (by omega)
  have bits : (mantissa : ℚ) < 2 * significand := by
    exact_mod_cast (by omega : mantissa < 2 * significand)
  calc (mantissa : ℚ) * 2 ^ exponent < 2 * significand * 2 ^ exponent := by gcongr
    _ = significand * (2 * 2 ^ exponent) := by ring
    _ ≤ significand * 2 ^ power := by gcongr

theorem compare_magnitudes (short : mantissa < 2 * full) (short' : significand < 2 * full)
    (low : least ≤ exponent) (low' : least ≤ power) (long : full ≤ mantissa ∨ exponent = least)
    (long' : full ≤ significand ∨ power = least) :
    (compare exponent power).then (compare mantissa significand) =
      compare ((mantissa : ℚ) * 2 ^ exponent) (significand * 2 ^ power) := by
  rcases lt_trichotomy exponent power with below | rfl | above
  · rw [Int.compare_eq_lt.mpr below]
    have less := lt_of_exponent_lt short (long'.resolve_right (by omega)) below
    exact (compare_lt_iff_lt.mpr less).symm
  · have same : compare exponent exponent = .eq := compare_eq_iff_eq.mpr rfl
    have scale : (0 : ℚ) < 2 ^ exponent := by positivity
    rw [same, Ordering.eq_then]
    rcases lt_trichotomy mantissa significand with less | rfl | greater
    · rw [compare_lt_iff_lt.mpr less, compare_lt_iff_lt.mpr]
      exact mul_lt_mul_of_pos_right (by exact_mod_cast less) scale
    · rw [compare_eq_iff_eq.mpr rfl, compare_eq_iff_eq.mpr rfl]
    · rw [compare_gt_iff_gt.mpr greater, compare_gt_iff_gt.mpr]
      exact mul_lt_mul_of_pos_right (by exact_mod_cast greater) scale
  · rw [compare_gt_iff_gt.mpr above]
    have greater := lt_of_exponent_lt short' (long.resolve_right (by omega)) above
    exact (compare_gt_iff_gt.mpr greater).symm

theorem compare_neg_neg (a b : ℚ) : compare (-a) (-b) = compare b a := by
  rcases lt_trichotomy b a with below | rfl | above
  · rw [compare_lt_iff_lt.mpr below, compare_lt_iff_lt.mpr (neg_lt_neg below)]
  · rw [compare_eq_iff_eq.mpr rfl, compare_eq_iff_eq.mpr rfl]
  · rw [compare_gt_iff_gt.mpr above, compare_gt_iff_gt.mpr (neg_lt_neg above)]

/-- Numbers of one format are in the order of their values. -/
theorem IsRepresented.compare_eq (represented : IsRepresented format fields)
    (represented' : IsRepresented format other) :
    fields.compare other = some (compare (valueOf fields) (valueOf other)) := by
  have bits := two_pow_mantissaBits format
  cases represented with
  | @zero sign =>
    cases represented' with
    | @zero sign' => rfl
    | @finite sign' mantissa exponent positive =>
      cases sign' with
      | positive => exact congrArg some (compare_lt_iff_lt.mpr valueOf_positive_pos).symm
      | negative => exact congrArg some (compare_gt_iff_gt.mpr valueOf_negative_neg).symm
  | @finite sign mantissa exponent positive short least low full =>
    cases represented' with
    | @zero sign' =>
      cases sign with
      | positive => exact congrArg some (compare_gt_iff_gt.mpr valueOf_positive_pos).symm
      | negative => exact congrArg some (compare_lt_iff_lt.mpr valueOf_negative_neg).symm
    | @finite sign' significand power positive' short' least' low' full' =>
      rw [bits] at short short'
      cases sign with
      | positive =>
        cases sign' with
        | positive =>
          exact congrArg some (compare_magnitudes short short' least least' full full')
        | negative =>
          exact congrArg some
            (compare_gt_iff_gt.mpr (valueOf_negative_neg.trans valueOf_positive_pos)).symm
      | negative =>
        cases sign' with
        | positive =>
          exact congrArg some
            (compare_lt_iff_lt.mpr (valueOf_negative_neg.trans valueOf_positive_pos)).symm
        | negative =>
          rw [compare_negative, valueOf_negative, valueOf_negative]
          exact congrArg some ((compare_magnitudes short' short least' least full' full).trans
            (compare_neg_neg _ _).symm)

theorem lt_iff_value (finite : x.isFinite = true) (finite' : y.isFinite = true) :
    x < y ↔ value x < value y := by
  have represented := canonical_iff_isRepresented.mp (canonical_of_isFinite finite)
  have represented' := canonical_iff_isRepresented.mp (canonical_of_isFinite finite')
  rw [lt_iff_compare, represented.compare_eq represented', Option.some.injEq, compare_lt_iff_lt]
  rfl

theorem le_iff_value (finite : x.isFinite = true) (finite' : y.isFinite = true) :
    x ≤ y ↔ value x ≤ value y := by
  have represented := canonical_iff_isRepresented.mp (canonical_of_isFinite finite)
  have represented' := canonical_iff_isRepresented.mp (canonical_of_isFinite finite')
  rw [le_iff_compare, represented.compare_eq represented']
  simp only [Option.some.injEq, exists_eq_left']
  exact Ordering.ne_gt_iff_isLE.symm.trans compare_le_iff_le

theorem beq_iff_value (finite : x.isFinite = true) (finite' : y.isFinite = true) :
    (x == y) = true ↔ value x = value y := by
  have represented := canonical_iff_isRepresented.mp (canonical_of_isFinite finite)
  have represented' := canonical_iff_isRepresented.mp (canonical_of_isFinite finite')
  change ((fields32 x).compare (fields32 y) == some .eq) = true ↔ _
  rw [beq_iff_eq, represented.compare_eq represented', Option.some.injEq, compare_eq_iff_eq]
  rfl

/-! ## Infinities -/

/-- The value of a number, with the infinities at both ends. -/
def rankOf : UnpackedFloat → WithBot (WithTop ℚ)
  | .infinity .negative => ⊥
  | .infinity .positive => ⊤
  | fields => ((valueOf fields : WithTop ℚ) : WithBot (WithTop ℚ))

def rank (x : Float32) : WithBot (WithTop ℚ) :=
  rankOf (fields32 x)

theorem rank_of_isFinite (finite : x.isFinite = true) :
    rank x = ((value x : WithTop ℚ) : WithBot (WithTop ℚ)) := by
  change (fields32 x).isFinite = true at finite
  unfold rank value
  cases fields : fields32 x with
  | infinity => rw [fields] at finite; cases finite
  | notANumber | zero | finite => rfl

/-- All numbers but `NaN` are in the order of their ranks. -/
theorem lt_iff_rank (number : x.isNaN = false) (number' : y.isNaN = false) :
    x < y ↔ rank x < rank y := by
  by_cases finite : x.isFinite = true ∧ y.isFinite = true
  · rw [lt_iff_value finite.1 finite.2, rank_of_isFinite finite.1, rank_of_isFinite finite.2,
      WithBot.coe_lt_coe, WithTop.coe_lt_coe]
  -- One of them is infinite, and comparing looks no further than its sign.
  · have bottom (q : ℚ) : ¬ ((q : WithTop ℚ) : WithBot (WithTop ℚ)) < ⊥ := not_lt_bot
    have top (q : ℚ) : ((q : WithTop ℚ) : WithBot (WithTop ℚ)) < ⊤ :=
      WithBot.coe_lt_coe.mpr (WithTop.coe_lt_top q)
    change (fields32 x).isNaN = false at number
    change (fields32 y).isNaN = false at number'
    change ¬((fields32 x).isFinite = true ∧ (fields32 y).isFinite = true) at finite
    rw [lt_iff_compare, rank, rank]
    generalize fields32 x = left at *
    generalize fields32 y = right at *
    cases left with
    | notANumber => cases number
    | zero sign | finite sign =>
      cases right with
      | notANumber => cases number'
      | zero | finite => exact absurd ⟨rfl, rfl⟩ finite
      | infinity other =>
        cases other with
        | negative => exact iff_of_false nofun (bottom _)
        | positive => exact iff_of_true rfl (top _)
    | infinity sign =>
      cases right with
      | notANumber => cases number'
      | zero | finite =>
        cases sign with
        | negative => exact iff_of_true rfl (WithBot.bot_lt_coe _)
        | positive => exact iff_of_false nofun not_top_lt
      | infinity other =>
        cases sign with
        | positive => cases other <;> exact iff_of_false nofun not_top_lt
        | negative =>
          cases other with
          | negative => exact iff_of_false nofun not_lt_bot
          | positive => exact iff_of_true rfl bot_lt_top

/-! ## Magnitudes -/

theorem value_abs (finite : x.isFinite = true) :
    x.abs.isFinite = true ∧ value x.abs = |value x| := by
  have canonical := canonical_of_isFinite finite
  have shown : x.abs = ofFields32 (fields32 x).abs := rfl
  rw [shown]
  unfold value
  generalize fields32 x = fields at canonical
  cases canonical with
  | zero =>
    refine ⟨isFinite_ofFields32 .zero, ?_⟩
    rw [UnpackedFloat.abs, fields32_ofFields32 .zero]
    exact abs_zero.symm
  | @finite sign mantissa exponent positive short least low full =>
    have kept : Canonical (.finite .positive mantissa exponent positive) :=
      .finite short least low full
    refine ⟨isFinite_ofFields32 kept, ?_⟩
    rw [UnpackedFloat.abs, fields32_ofFields32 kept]
    cases sign with
    | positive => exact (abs_of_pos valueOf_positive_pos).symm
    | negative => rw [valueOf_positive, valueOf_negative, abs_neg, abs_of_pos (by positivity)]

end Troupe.Number
