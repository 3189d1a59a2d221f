import Mathlib
import Troupe.Proofs.Geometry.Distance
import Troupe.Proofs.Geometry.Nested
import Troupe.Proofs.Number.Single

/-! # Points that are close

A distance is computed in five rounded steps, and compared with a radius whose square is rounded as
well. Rounding keeps the order, so none of that matters for one conclusion: if the squared distance
is below the squared radius, then along either axis the exact difference is below the radius. That
holds where squares vanish and where they are infinite.

* `isFinite_of_add`, `isFinite_of_mul_self` — what a finite sum and a finite square are made of.
* `abs_value_lt_of_lt_mul_self` — squares in order.
* `Point.abs_sub_lt_of_close` — points that are closer than a radius.
-/

namespace Troupe.Number

open Float.Model (UnpackedFloat Format)
open Float.Model.UnpackedFloat

variable {x y : Float32}

/-! ## What a finite result is made of -/

theorem isFinite_of_packed {fields : UnpackedFloat}
    (finite : (ofFields32 fields).isFinite = true) : fields.isFinite = true := by
  cases fields with
  | notANumber => exact finite
  | infinity sign => cases sign <;> exact finite
  | zero | finite => rfl

theorem isFinite_of_add (finite : (x + y).isFinite = true) :
    x.isFinite = true ∧ y.isFinite = true := by
  have kept : (add .binary32 (fields32 x) (fields32 y)).isFinite = true := isFinite_of_packed finite
  change (fields32 x).isFinite = true ∧ (fields32 y).isFinite = true
  generalize fields32 x = left at *
  generalize fields32 y = right at *
  cases left with
  | notANumber => cases right <;> cases kept
  | infinity sign =>
    cases right with
    | notANumber | zero | finite => cases kept
    | infinity other => cases sign <;> cases other <;> cases kept
  | zero | finite =>
    cases right with
    | notANumber | infinity => cases kept
    | zero | finite => exact ⟨rfl, rfl⟩

theorem isFinite_of_mul_self (finite : (x * x).isFinite = true) : x.isFinite = true := by
  have kept : (mul .binary32 (fields32 x) (fields32 x)).isFinite = true := isFinite_of_packed finite
  change (fields32 x).isFinite = true
  generalize fields32 x = fields at *
  cases fields with
  | notANumber => exact kept
  | infinity sign => cases sign <;> exact kept
  | zero | finite => rfl

theorem not_lt_zero_of_signed (signed : Signed .positive (fields32 x)) : ¬ x < 0 := by
  have zero : fields32 0 = .zero .positive := rfl
  rw [lt_iff_compare, zero]
  generalize fields32 x = fields at signed
  cases signed <;> nofun

/-! ## Squares in order -/

theorem value_mul_self_nonneg (square : (x * x).isFinite = true) : 0 ≤ value (x * x) := by
  have within := isFinite_of_mul_self square
  have zero : IsRepresented .binary32 (.zero .positive) := .zero
  exact zero.isNearest.le_of_le wide_binary32
    ((isRounded_mul within within).isNearest square) (mul_self_nonneg _)

/-- What is rounded to less than a number of the format was less. -/
theorem IsNearest.abs_lt_of_abs_lt {q : ℚ} {fields other : UnpackedFloat}
    (nearest : IsNearest .binary32 q fields) (represented : IsRepresented .binary32 other)
    (less : |valueOf fields| < valueOf other) : |q| < valueOf other := by
  obtain ⟨above, below⟩ := abs_lt.mp less
  rw [abs_lt]
  constructor
  · by_contra! beyond
    have turned := represented.isNearest.le_of_le wide_binary32 nearest.neg (by linarith)
    rw [valueOf_neg] at turned
    linarith
  · by_contra! beyond
    have kept := represented.isNearest.le_of_le wide_binary32 nearest beyond
    linarith

/-- A square that is not above a number is not below it for want of range. -/
theorem abs_value_lt_of_lt_mul_self {radius sum : Float32} (finite : radius.isFinite = true)
    (nonneg : 0 ≤ value radius) (square : (x * x).isFinite = true) (kept : sum.isFinite = true)
    (le : value (x * x) ≤ value sum) (less : sum < radius * radius) : |value x| < value radius := by
  by_contra! beyond
  have within := isFinite_of_mul_self square
  have squares : value radius * value radius ≤ value x * value x := by
    rw [← abs_mul_abs_self (value x)]
    exact mul_self_le_mul_self nonneg beyond
  have range := (isRounded_mul within within).isFinite_iff.mp square
  rw [abs_of_nonneg (mul_self_nonneg _)] at range
  have roundedRadius := isRounded_mul finite finite
  have finite' : (radius * radius).isFinite = true := by
    rw [roundedRadius.isFinite_iff, abs_of_nonneg (mul_self_nonneg _)]
    exact squares.trans_lt range
  have order : value (radius * radius) ≤ value (x * x) :=
    (roundedRadius.isNearest finite').le_of_le wide_binary32
      ((isRounded_mul within within).isNearest square) squares
  rw [lt_iff_value kept finite'] at less
  linarith

end Troupe.Number

namespace Troupe.Geometry.Point

open Troupe.Number

variable {p q : Point} {radius : Float32}

/-- Along either axis the points are closer than the radius, exactly. -/
theorem abs_sub_lt_of_close (finite : p.IsFinite) (finite' : q.IsFinite)
    (bounded : radius.isFinite = true) (nonneg : 0 ≤ value radius)
    (close : p.distanceSquared q < radius * radius) :
    |value p.x - value q.x| < value radius ∧ |value p.y - value q.y| < value radius := by
  have kept := isFinite_of_lt (not_lt_zero_of_signed (signed_distanceSquared finite finite')) close
  obtain ⟨squareX, squareY⟩ : ((p.x - q.x) * (p.x - q.x)).isFinite = true ∧
    ((p.y - q.y) * (p.y - q.y)).isFinite = true := isFinite_of_add kept
  have sum : IsNearest .binary32 _ (fields32 (p.distanceSquared q)) :=
    (isRounded_add squareX squareY).isNearest kept
  have bound := isRepresented_of_isFinite bounded
  -- either square is not above the sum, and a difference is rounded to less than the radius
  have along {x y : Float32} (finite : x.isFinite = true) (finite' : y.isFinite = true)
      (square : ((x - y) * (x - y)).isFinite = true)
      (le : value ((x - y) * (x - y)) ≤ value (p.distanceSquared q)) :
      |value x - value y| < value radius := by
    have less := abs_value_lt_of_lt_mul_self bounded nonneg square kept le close
    have nearest := (isRounded_sub finite finite').isNearest (isFinite_of_mul_self square)
    exact nearest.abs_lt_of_abs_lt bound less
  constructor
  · refine along finite.1 finite'.1 squareX ?_
    exact (isRepresented_of_isFinite squareX).isNearest.le_of_le wide_binary32 sum
      (le_add_of_nonneg_right (value_mul_self_nonneg squareY))
  · refine along finite.2 finite'.2 squareY ?_
    exact (isRepresented_of_isFinite squareY).isNearest.le_of_le wide_binary32 sum
      (le_add_of_nonneg_left (value_mul_self_nonneg squareX))

end Troupe.Geometry.Point
