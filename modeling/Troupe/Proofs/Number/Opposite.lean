import Troupe.Proofs.Number.Arithmetic

/-! # Numbers of opposite sign

Rounding to nearest does not look at signs, so a difference taken the other way around has the
other sign and the same size. From there on products and differences keep their sizes, too, a
quotient of two such numbers keeps even its sign, and so does a square.

Zeros and infinities stand apart. A difference of equal numbers is a positive zero whichever way it
is taken, so nothing is said of the sign of a zero, nor of the sign of an infinity that comes from
dividing by one.

* `Opposite`, `Akin` — numbers that differ by their sign, and numbers that do not.
* `opposite_sub_swap`, `Opposite.sub`, `Opposite.mul_right` — differences and products.
* `akin_div`, `mul_self_of_opposite` — quotients and squares.
-/

namespace Troupe.Number

open Float.Model (UnpackedFloat Format)
open Float.Model.UnpackedFloat

/-- Numbers of one size with opposite signs; zeros may have any. -/
inductive Opposite : UnpackedFloat → UnpackedFloat → Prop
  | notANumber : Opposite .notANumber .notANumber
  | infinity {sign : Sign} : Opposite (.infinity sign) (.infinity (-sign))
  | zero {sign other : Sign} : Opposite (.zero sign) (.zero other)
  | finite {sign : Sign} {mantissa : Nat} {exponent : Int} {positive : 0 < mantissa} :
      Opposite (.finite sign mantissa exponent positive)
        (.finite (-sign) mantissa exponent positive)

/-- Equal numbers; zeros and infinities may have any signs. -/
inductive Akin : UnpackedFloat → UnpackedFloat → Prop
  | notANumber : Akin .notANumber .notANumber
  | infinity {sign other : Sign} : Akin (.infinity sign) (.infinity other)
  | zero {sign other : Sign} : Akin (.zero sign) (.zero other)
  | finite {sign : Sign} {mantissa : Nat} {exponent : Int} {positive : 0 < mantissa} :
      Akin (.finite sign mantissa exponent positive) (.finite sign mantissa exponent positive)

theorem Akin.refl (fields : UnpackedFloat) : Akin fields fields := by
  cases fields with
  | notANumber => exact .notANumber
  | infinity => exact .infinity
  | zero => exact .zero
  | finite => exact .finite

theorem neg_mul_sign (sign other : Sign) : -sign * other = -(sign * other) := by
  cases sign <;> cases other <;> rfl

theorem mul_swap_sign (sign other : Sign) : sign * other = other * sign := by
  cases sign <;> cases other <;> rfl

theorem mul_self_sign (sign : Sign) : -sign * -sign = sign * sign := by cases sign <;> rfl

theorem neg_div_neg_sign (sign other : Sign) : -sign / -other = sign / other := by
  cases sign <;> cases other <;> rfl

theorem apply_neg_sign (sign : Sign) (n : Int) : (-sign).apply n = -sign.apply n := by
  cases sign
  · exact (Int.neg_neg n).symm
  · rfl

/-! ## Rounding and packing -/

section Fields

variable {format : Format} {left right left' right' : UnpackedFloat}

theorem opposite_roundWithAccuracy (format : Format) (sign : Sign) (mantissa : Nat)
    (exponent : Int) (accuracy : Accuracy) :
    Opposite (roundWithAccuracy format sign mantissa exponent accuracy)
      (roundWithAccuracy format (-sign) mantissa exponent accuracy) := by
  unfold roundWithAccuracy
  dsimp only
  split
  · exact .zero
  · exact .finite

theorem opposite_normalize (format : Format) (mantissa exponent : Int) (zeroSign : Sign) :
    Opposite (normalize format mantissa exponent zeroSign)
      (normalize format (-mantissa) exponent zeroSign) := by
  unfold UnpackedFloat.normalize
  rcases Int.lt_trichotomy mantissa 0 with negative | rfl | positive
  · rw [Int.compare_eq_lt.mpr negative, Int.compare_eq_gt.mpr (by omega)]
    exact opposite_roundWithAccuracy _ _ _ _ _
  · exact .zero
  · rw [Int.compare_eq_gt.mpr positive, Int.compare_eq_lt.mpr (by omega), Int.neg_neg]
    exact opposite_roundWithAccuracy _ _ _ _ _

theorem Opposite.packed (opposite : Opposite left right) :
    Opposite (fields32 (ofFields32 left)) (fields32 (ofFields32 right)) := by
  have unpacks (fields : UnpackedFloat) :
      fields32 (ofFields32 fields) = unpack .binary32 (pack .binary32 fields) := rfl
  -- The sign has a bit of its own, and the others say what else there is.
  have components (sign : Sign) (exponent : BitVec 8) (mantissa : BitVec 23) :
      Opposite (unpack .binary32 (packComponents .binary32 sign exponent mantissa))
        (unpack .binary32 (packComponents .binary32 (-sign) exponent mantissa)) := by
    unfold unpack
    simp only [unpackExponent_packComponents, unpackMantissa_packComponents,
      unpackSign_packComponents, Sign.ofBitVec_toBitVec]
    split
    · split
      · exact .infinity
      · exact .notANumber
    · split
      · split
        · exact .zero
        · exact .finite
      · exact .finite
  rw [unpacks, unpacks]
  cases opposite with
  | notANumber => exact .notANumber
  | @infinity sign => cases sign <;> exact .infinity
  | @zero sign other => cases sign <;> cases other <;> exact .zero
  | @finite sign =>
    unfold pack
    dsimp only
    split
    · exact components sign _ _
    · split
      · exact components sign _ _
      · exact components sign _ _

theorem Akin.packed (akin : Akin left right) :
    Akin (fields32 (ofFields32 left)) (fields32 (ofFields32 right)) := by
  cases akin with
  | notANumber | finite => exact .refl _
  | @infinity sign other => cases sign <;> cases other <;> exact .infinity
  | @zero sign other => cases sign <;> cases other <;> exact .zero

/-! ## Differences -/

theorem sub_finite {sign other : Sign} {mantissa significand : Nat} {exponent power : Int}
    {positive : 0 < mantissa} {positive' : 0 < significand} :
    sub format (.finite sign mantissa exponent positive)
        (.finite other significand power positive') =
      UnpackedFloat.normalize format
        (sign.apply (decreaseExponent mantissa exponent (min exponent power)).1 -
          other.apply (decreaseExponent significand power (min exponent power)).1)
        (min exponent power) .positive := rfl

theorem opposite_sub_swap_fields (format : Format) (left right : UnpackedFloat) :
    Opposite (sub format left right) (sub format right left) := by
  cases left with
  | notANumber => cases right <;> exact .notANumber
  | infinity sign =>
    cases right with
    | notANumber => exact .notANumber
    | infinity other => cases sign <;> cases other <;> first | exact .notANumber | exact .infinity
    | zero | finite => exact .infinity
  | zero sign =>
    cases right with
    | notANumber => exact .notANumber
    | infinity other => cases other <;> exact .infinity
    | zero other => cases sign <;> cases other <;> exact .zero
    | finite other => cases other <;> exact .finite
  | finite sign mantissa exponent =>
    cases right with
    | notANumber => exact .notANumber
    | infinity other => cases other <;> exact .infinity
    | zero => exact .finite
    | finite other significand power =>
      rw [sub_finite, sub_finite, Int.min_comm power exponent, ← Int.neg_sub (sign.apply _)]
      exact opposite_normalize _ _ _ _

theorem Opposite.sub_fields (minuend : Opposite left left') (subtrahend : Opposite right right') :
    Opposite (sub format left right) (sub format left' right') := by
  cases minuend with
  | notANumber => exact .notANumber
  | @infinity sign =>
    cases subtrahend with
    | notANumber => exact .notANumber
    | @infinity other => cases sign <;> cases other <;> first | exact .notANumber | exact .infinity
    | zero | finite => exact .infinity
  | @zero sign sign' =>
    cases subtrahend with
    | notANumber => exact .notANumber
    | infinity => exact .infinity
    | @zero other other' =>
      cases sign <;> cases sign' <;> cases other <;> cases other' <;> exact .zero
    | finite => exact .finite
  | @finite sign mantissa exponent =>
    cases subtrahend with
    | notANumber => exact .notANumber
    | infinity => exact .infinity
    | zero => exact .finite
    | @finite other significand power =>
      have negated (a b : Int) :
          (-sign).apply a - (-other).apply b = -(sign.apply a - other.apply b) := by
        rw [apply_neg_sign, apply_neg_sign]
        omega
      rw [sub_finite, sub_finite, negated]
      exact opposite_normalize _ _ _ _

/-! ## Products -/

theorem mul_swap_fields (format : Format) (left right : UnpackedFloat) :
    mul format left right = mul format right left := by
  cases left with
  | notANumber => cases right <;> rfl
  | infinity sign | zero sign =>
    cases right with
    | notANumber => rfl
    | infinity other | zero other | finite other => simp only [mul, mul_swap_sign sign other]
  | finite sign mantissa exponent =>
    cases right with
    | notANumber => rfl
    | infinity other | zero other => simp only [mul, mul_swap_sign sign other]
    | finite other significand power =>
      simp only [mul, mul_swap_sign sign other, Nat.mul_comm mantissa, Int.add_comm exponent]

theorem Opposite.mul_right_fields (opposite : Opposite left left') :
    Opposite (mul format left right) (mul format left' right) := by
  cases opposite with
  | notANumber => exact .notANumber
  | infinity =>
    cases right with
    | notANumber | zero => exact .notANumber
    | infinity | finite => simp only [mul, neg_mul_sign]; exact .infinity
  | zero =>
    cases right with
    | notANumber | infinity => exact .notANumber
    | zero | finite => exact .zero
  | finite =>
    cases right with
    | notANumber => exact .notANumber
    | infinity => simp only [mul, neg_mul_sign]; exact .infinity
    | zero => exact .zero
    | finite => simp only [mul, neg_mul_sign]; exact opposite_roundWithAccuracy _ _ _ _ _

theorem mul_self_of_opposite_fields (opposite : Opposite left right) :
    mul format left left = mul format right right := by
  cases opposite with
  | notANumber => rfl
  | infinity | finite => simp only [mul, mul_self_sign]
  | @zero sign other => cases sign <;> cases other <;> rfl

/-! ## Quotients -/

theorem Opposite.akin_div_fields (dividend : Opposite left left')
    (divisor : Opposite right right') : Akin (div format left right) (div format left' right') := by
  cases dividend with
  | notANumber => exact .notANumber
  | infinity =>
    cases divisor with
    | notANumber | infinity => exact .notANumber
    | zero | finite => exact .infinity
  | zero =>
    cases divisor with
    | notANumber | zero => exact .notANumber
    | infinity | finite => exact .zero
  | finite =>
    cases divisor with
    | notANumber => exact .notANumber
    | infinity => exact .zero
    | zero => exact .infinity
    | finite => simp only [div, neg_div_neg_sign]; exact .refl _

theorem Opposite.abs_eq (opposite : Opposite left right) : left.abs = right.abs := by
  cases opposite <;> rfl

end Fields

/-! ## Single precision -/

variable {x y x' y' : Float32}

theorem mul_swap (x y : Float32) : x * y = y * x :=
  congrArg ofFields32 (mul_swap_fields .binary32 (fields32 x) (fields32 y))

theorem opposite_sub_swap (x y : Float32) : Opposite (fields32 (x - y)) (fields32 (y - x)) :=
  (opposite_sub_swap_fields .binary32 (fields32 x) (fields32 y)).packed

theorem Opposite.sub (minuend : Opposite (fields32 x) (fields32 x'))
    (subtrahend : Opposite (fields32 y) (fields32 y')) :
    Opposite (fields32 (x - y)) (fields32 (x' - y')) :=
  (minuend.sub_fields subtrahend).packed

theorem Opposite.mul_right (opposite : Opposite (fields32 x) (fields32 x')) (y : Float32) :
    Opposite (fields32 (x * y)) (fields32 (x' * y)) :=
  opposite.mul_right_fields.packed

theorem mul_self_of_opposite (opposite : Opposite (fields32 x) (fields32 y)) : x * x = y * y :=
  congrArg ofFields32 (mul_self_of_opposite_fields opposite)

theorem akin_div (dividend : Opposite (fields32 x) (fields32 x'))
    (divisor : Opposite (fields32 y) (fields32 y')) :
    Akin (fields32 (x / y)) (fields32 (x' / y')) :=
  (dividend.akin_div_fields divisor).packed

theorem abs_eq_of_opposite (opposite : Opposite (fields32 x) (fields32 y)) : x.abs = y.abs :=
  congrArg ofFields32 opposite.abs_eq

end Troupe.Number
