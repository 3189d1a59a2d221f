import Troupe.Proofs.Number.Order
import Troupe.Proofs.Number.Rounding

/-! # Arithmetic that stays among the numbers

A sum is a number unless two infinities meet, a product unless an infinity meets a zero, and
numbers that are not negative stay so. The results may be infinite: what holds of signs alone is
enough to keep positions inside the stage, since they are moved there last.

* `NonNegative`, `nonneg_iff` — numbers that are not below zero, by their fields.
* `isNaN_add`, `nonneg_add`, `nonneg_mul` — sums and products.
* `one_sub_of_lt` — the other part of a fraction.
-/

namespace Troupe.Number

open Float.Model (UnpackedFloat Format totalExponent)
open Float.Model.UnpackedFloat

/-! ## Signs -/

theorem signed_roundWithAccuracy (format : Format) (sign : Sign) (mantissa : Nat) (exponent : Int)
    (accuracy : Accuracy) :
    Signed sign (roundWithAccuracy format sign mantissa exponent accuracy) :=
  rounded_roundWithAccuracy.signed

theorem signed_round (format : Format) (sign : Sign) (mantissa : Nat) (exponent : Int) :
    Signed sign (UnpackedFloat.round format sign mantissa exponent) :=
  signed_roundWithAccuracy _ _ _ _ _

theorem signed_normalize (format : Format) {mantissa : Int} (nonneg : 0 ≤ mantissa)
    (exponent : Int) :
    Signed .positive (UnpackedFloat.normalize format mantissa exponent .positive) := by
  unfold UnpackedFloat.normalize
  split
  case h_1 below =>
    have negative := Int.compare_eq_lt.mp below
    omega
  case h_2 => exact .zero
  case h_3 => exact signed_round _ _ _ _

theorem isNaN_normalize (format : Format) (mantissa exponent : Int) (sign : Sign) :
    (UnpackedFloat.normalize format mantissa exponent sign).isNaN = false := by
  unfold UnpackedFloat.normalize
  split
  case h_2 => rfl
  case h_1 | h_3 => exact (signed_round _ _ _ _).isNaN_eq_false

section Fields

variable {format : Format} {left right : UnpackedFloat}

theorem isNaN_add_fields (finite : left.isFinite = true) (number : right.isNaN = false) :
    (add format left right).isNaN = false := by
  cases left with
  | notANumber | infinity => cases finite
  | zero sign =>
    cases right with
    | notANumber => cases number
    | infinity | finite => rfl
    | zero other => cases sign <;> cases other <;> rfl
  | finite =>
    cases right with
    | notANumber => cases number
    | infinity | zero => rfl
    | finite => exact isNaN_normalize _ _ _ _

theorem isNaN_sub_fields (finite : left.isFinite = true) (other : right.isFinite = true) :
    (sub format left right).isNaN = false := by
  cases left with
  | notANumber | infinity => cases finite
  | zero sign =>
    cases right with
    | notANumber | infinity => cases other
    | zero sign' => cases sign <;> cases sign' <;> rfl
    | finite => rfl
  | finite =>
    cases right with
    | notANumber | infinity => cases other
    | zero => rfl
    | finite => exact isNaN_normalize _ _ _ _

theorem isNaN_mul_fields (finite : left.isFinite = true) (other : right.isFinite = true) :
    (mul format left right).isNaN = false := by
  cases left with
  | notANumber | infinity => cases finite
  | zero =>
    cases right with
    | notANumber | infinity => cases other
    | zero | finite => rfl
  | finite =>
    cases right with
    | notANumber | infinity => cases other
    | zero => rfl
    | finite => exact (signed_roundWithAccuracy _ _ _ _ _).isNaN_eq_false

/-- A square has no minus sign, even that of an infinity. -/
theorem signed_mul_self_fields (number : left.isNaN = false) :
    Signed .positive (mul format left left) := by
  cases left with
  | notANumber => cases number
  | infinity sign => cases sign <;> exact .infinity
  | zero sign => cases sign <;> exact .zero
  | finite sign => cases sign <;> exact signed_roundWithAccuracy _ _ _ _ _

theorem Signed.add (augend : Signed .positive left) (addend : Signed .positive right) :
    Signed .positive (UnpackedFloat.add format left right) := by
  cases augend with
  | infinity => cases addend <;> exact .infinity
  | zero =>
    cases addend with
    | infinity => exact .infinity
    | zero => exact .zero
    | finite => exact .finite
  | finite =>
    cases addend with
    | infinity => exact .infinity
    | zero => exact .finite
    | finite =>
      exact signed_normalize format
        (Int.add_nonneg (Int.natCast_nonneg _) (Int.natCast_nonneg _)) _

end Fields

/-! ## Numbers without a minus sign -/

/-- `NaN` or a number with the positive sign. -/
inductive Unsigned : UnpackedFloat → Prop
  | notANumber : Unsigned .notANumber
  | signed {fields : UnpackedFloat} (signed : Signed .positive fields) : Unsigned fields

theorem Unsigned.packed {fields : UnpackedFloat} (unsigned : Unsigned fields) :
    Unsigned (fields32 (ofFields32 fields)) := by
  cases unsigned with
  | notANumber => exact .notANumber
  | signed signed => exact .signed signed.packed

theorem Unsigned.signed_of_number {fields : UnpackedFloat} (unsigned : Unsigned fields)
    (number : fields.isNaN = false) : Signed .positive fields := by
  cases unsigned with
  | notANumber => cases number
  | signed signed => exact signed

section Fields

variable {format : Format} {left right : UnpackedFloat}

theorem Signed.mul (multiplicand : Signed .positive left) (multiplier : Signed .positive right) :
    Unsigned (UnpackedFloat.mul format left right) := by
  cases multiplicand with
  | infinity =>
    cases multiplier with
    | zero => exact .notANumber
    | infinity | finite => exact .signed .infinity
  | zero =>
    cases multiplier with
    | infinity => exact .notANumber
    | zero | finite => exact .signed .zero
  | finite =>
    cases multiplier with
    | infinity => exact .signed .infinity
    | zero => exact .signed .zero
    | finite => exact .signed (signed_roundWithAccuracy _ _ _ _ _)

theorem Signed.div (dividend : Signed .positive left) (divisor : Signed .positive right) :
    Unsigned (UnpackedFloat.div format left right) := by
  cases dividend with
  | infinity =>
    cases divisor with
    | infinity => exact .notANumber
    | zero | finite => exact .signed .infinity
  | zero =>
    cases divisor with
    | zero => exact .notANumber
    | infinity | finite => exact .signed .zero
  | finite =>
    cases divisor with
    | infinity => exact .signed .zero
    | zero => exact .signed .infinity
    | finite => exact .signed (signed_roundWithAccuracy _ _ _ _ _)

theorem Unsigned.add (augend : Unsigned left) (addend : Unsigned right) :
    Unsigned (UnpackedFloat.add format left right) := by
  cases augend with
  | notANumber => exact .notANumber
  | signed positive =>
    cases addend with
    | notANumber => cases positive <;> exact .notANumber
    | signed other => exact .signed (positive.add other)

theorem Unsigned.mul (multiplicand : Unsigned left) (multiplier : Unsigned right) :
    Unsigned (UnpackedFloat.mul format left right) := by
  cases multiplicand with
  | notANumber => exact .notANumber
  | signed positive =>
    cases multiplier with
    | notANumber => cases positive <;> exact .notANumber
    | signed other => exact positive.mul other

theorem Unsigned.div (dividend : Unsigned left) (divisor : Unsigned right) :
    Unsigned (UnpackedFloat.div format left right) := by
  cases dividend with
  | notANumber => exact .notANumber
  | signed positive =>
    cases divisor with
    | notANumber => cases positive <;> exact .notANumber
    | signed other => exact positive.div other

end Fields

theorem unsigned_ofNat (n : Nat) : Unsigned (fields32 (Float32.ofNat n)) := by
  change Unsigned (fields32 (Float32.ofScientific n false 0))
  unfold Float32.ofScientific
  split
  case isTrue small =>
    have whole : Unsigned (fields32 n.toUInt64.toFloat32) :=
      Unsigned.packed (.signed (signed_normalize _ (Int.natCast_nonneg _) _))
    have one : Unsigned (fields32 (.ofBits 0x3F800000)) := .signed .finite
    exact (whole.mul one).packed
  case isFalse =>
    have unsigned : Unsigned (ofScientific .binary32 n 0) := by
      unfold ofScientific
      split
      · exact .signed .zero
      · split
        · exact .signed .infinity
        · split
          · exact .signed .zero
          · split
            · exact Unsigned.mul (.signed .finite) (.signed .finite)
            · exact Unsigned.div (.signed .finite) (.signed .finite)
    exact unsigned.packed

/-! ## Numbers that are not below zero -/

/-- A number that is not below zero, both zeros among them. -/
inductive NonNegative : UnpackedFloat → Prop
  | signed {fields : UnpackedFloat} (signed : Signed .positive fields) : NonNegative fields
  | zero : NonNegative (.zero .negative)

theorem NonNegative.packed {fields : UnpackedFloat} (nonNegative : NonNegative fields) :
    NonNegative (fields32 (ofFields32 fields)) := by
  cases nonNegative with
  | signed signed => exact .signed signed.packed
  | zero => exact .zero

section Fields

variable {format : Format} {left right : UnpackedFloat}

theorem NonNegative.add (augend : NonNegative left) (addend : NonNegative right) :
    NonNegative (UnpackedFloat.add format left right) := by
  cases augend with
  | signed positive =>
    cases addend with
    | signed other => exact .signed (positive.add other)
    | zero => cases positive <;> exact .signed (by constructor)
  | zero =>
    cases addend with
    | signed other => cases other <;> exact .signed (by constructor)
    | zero => exact .zero

theorem NonNegative.mul (multiplicand : NonNegative left) (multiplier : NonNegative right)
    (finite : left.isFinite = true) (other : right.isFinite = true) :
    NonNegative (UnpackedFloat.mul format left right) := by
  cases multiplicand with
  | signed positive =>
    cases multiplier with
    | signed positive' =>
      exact .signed ((positive.mul positive').signed_of_number (isNaN_mul_fields finite other))
    | zero =>
      cases positive with
      | infinity => cases finite
      | zero | finite => exact .zero
  | zero =>
    cases multiplier with
    | signed positive =>
      cases positive with
      | infinity => cases other
      | zero | finite => exact .zero
    | zero => exact .signed .zero

end Fields

theorem nonneg_iff (x : Float32) : 0 ≤ x ↔ NonNegative (fields32 x) := by
  have zero : fields32 0 = .zero .positive := rfl
  rw [le_iff_compare, zero]
  generalize fields32 x = fields
  constructor
  · rintro ⟨order, same, isLE⟩
    cases fields with
    | notANumber => cases same
    | infinity sign =>
      cases sign with
      | positive => exact .signed .infinity
      | negative => cases same; cases isLE
    | zero sign =>
      cases sign with
      | positive => exact .signed .zero
      | negative => exact .zero
    | finite sign =>
      cases sign with
      | positive => exact .signed .finite
      | negative => cases same; cases isLE
  · intro nonNegative
    cases nonNegative with
    | signed positive => cases positive <;> exact ⟨_, rfl, rfl⟩
    | zero => exact ⟨_, rfl, rfl⟩

/-! ## Sums and products -/

section Arithmetic

variable {x y : Float32}

theorem isNaN_add (finite : x.isFinite = true) (number : y.isNaN = false) :
    (x + y).isNaN = false :=
  (isNaN_ofFields32 _).trans (isNaN_add_fields finite number)

theorem isNaN_sub (finite : x.isFinite = true) (other : y.isFinite = true) :
    (x - y).isNaN = false :=
  (isNaN_ofFields32 _).trans (isNaN_sub_fields finite other)

theorem signed_mul_self (number : x.isNaN = false) : Signed .positive (fields32 (x * x)) :=
  (signed_mul_self_fields number).packed

theorem isNaN_mul (finite : x.isFinite = true) (other : y.isFinite = true) :
    (x * y).isNaN = false :=
  (isNaN_ofFields32 _).trans (isNaN_mul_fields finite other)

theorem nonneg_add (augend : 0 ≤ x) (addend : 0 ≤ y) : 0 ≤ x + y := by
  rw [nonneg_iff] at augend addend ⊢
  exact (augend.add addend).packed

theorem nonneg_mul (multiplicand : 0 ≤ x) (multiplier : 0 ≤ y) (finite : x.isFinite = true)
    (other : y.isFinite = true) : 0 ≤ x * y := by
  rw [nonneg_iff] at multiplicand multiplier ⊢
  exact (multiplicand.mul multiplier finite other).packed

/-- What is left of a whole: a fraction below one is at most as long as one in its own last
    place, so the difference has no more bits than that. -/
theorem one_sub_of_lt (nonneg : 0 ≤ x) (below : x < 1) : 0 ≤ 1 - x ∧ (1 - x).isFinite = true := by
  have one : fields32 1 = .finite .positive (2 ^ 23) (-23) (by decide) := rfl
  rw [lt_iff_compare, one] at below
  rw [nonneg_iff] at nonneg ⊢
  change NonNegative (fields32 (ofFields32 (sub .binary32 (fields32 1) (fields32 x)))) ∧
    (fields32 (ofFields32 (sub .binary32 (fields32 1) (fields32 x)))).isFinite = true
  suffices Rounded .positive 104 (sub .binary32 (fields32 1) (fields32 x)) from
    ⟨.signed this.signed.packed, this.fits.isFinite⟩
  rw [one]
  cases fields : fields32 x with
  | notANumber | infinity =>
    rw [fields] at nonneg below
    cases nonneg with
    | signed signed => cases signed <;> cases below
  | zero => exact .finite (by decide)
  | finite sign mantissa exponent positive =>
    have short : mantissa < 2 ^ 24 := mantissa_lt_of_unpack fields
    rw [fields] at nonneg below
    obtain rfl : sign = .positive := by
      cases nonneg with
      | signed signed => cases signed; rfl
    rw [compare_positive_eq_lt] at below
    -- One has this many units in the last place of the fraction.
    obtain ⟨shift, places⟩ : ∃ shift : Nat, exponent = -23 - shift :=
      ⟨(-23 - exponent).toNat, by omega⟩
    have less : mantissa < 2 ^ 23 * 2 ^ shift := by
      cases shift with
      | zero => omega
      | succ shift =>
        have scale := Nat.two_pow_pos shift
        rw [Nat.pow_succ]
        omega
    have difference : sub .binary32 (.finite .positive (2 ^ 23) (-23) (by decide))
        (.finite .positive mantissa exponent positive) =
          UnpackedFloat.round .binary32 .positive (2 ^ 23 * 2 ^ shift - mantissa) exponent := by
      have smaller : min (-23) exponent = exponent := by omega
      have up : (-23 - exponent).toNat = shift := by omega
      have stays : (exponent - exponent).toNat = 0 := by omega
      simp only [sub, decreaseExponent, smaller, up, stays, Nat.shiftLeft_eq, Sign.apply]
      unfold UnpackedFloat.normalize
      rw [Int.compare_eq_gt.mpr (by omega)]
      dsimp only
      congr 1
      omega
    rw [difference]
    refine rounded_round ?_
    have bits : (2 ^ 23 * 2 ^ shift - mantissa).log2 ≤ 23 + shift := by
      refine log2_le_of_le ?_
      rw [Nat.pow_add]
      exact Nat.sub_le _ _
    simp only [totalExponent]
    omega

end Arithmetic

end Troupe.Number
