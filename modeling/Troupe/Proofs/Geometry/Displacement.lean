import Mathlib
import Troupe.Geometry.Segment
import Troupe.Proofs.Geometry.Sound
import Troupe.Proofs.Number.Error

/-! # How far computed displacements are from the exact ones

Every step of a computation with displacements is rounded. Determinants and dot products are sums of
two products each, and what rounding makes of them grows with the lengths of both displacements, not
with the result. A result that is small against the lengths may be nothing but rounding.

* `Displacement` — the exact displacement between two points.
* `isWithin_sub` — the computed displacement.
* `near_determinant`, `near_dot` — determinants and dot products.
* `exists_isWithin_normalize` — the direction of a displacement, up to a positive factor.
-/

namespace Troupe.Geometry

open Troupe.Number

/-- A displacement in the plane, without any rounding. -/
structure Displacement where
  x : ℚ
  y : ℚ

namespace Displacement

/-- The longer one of its two coordinates. -/
def reach (d : Displacement) : ℚ :=
  max |d.x| |d.y|

def cross (d e : Displacement) : ℚ :=
  d.x * e.y - d.y * e.x

def dot (d e : Displacement) : ℚ :=
  d.x * e.x + d.y * e.y

/-- The displacement along the same line with another length. -/
def scale (factor : ℚ) (d : Displacement) : Displacement :=
  ⟨factor * d.x, factor * d.y⟩

variable {d : Displacement} {bound : ℚ}

theorem cross_scale (d e : Displacement) (factor : ℚ) :
    d.cross (e.scale factor) = factor * d.cross e := by
  simp only [cross, scale]
  ring

theorem dot_scale (d e : Displacement) (factor : ℚ) :
    d.dot (e.scale factor) = factor * d.dot e := by
  simp only [dot, scale]
  ring

theorem reach_le_iff : d.reach ≤ bound ↔ |d.x| ≤ bound ∧ |d.y| ≤ bound :=
  max_le_iff

theorem reach_nonneg (d : Displacement) : 0 ≤ d.reach :=
  (abs_nonneg d.x).trans (le_max_left _ _)

theorem sq_reach_le (d : Displacement) : d.reach ^ 2 ≤ d.dot d := by
  have x := mul_self_nonneg d.x
  have y := mul_self_nonneg d.y
  unfold dot reach
  rcases max_cases |d.x| |d.y| with ⟨same, _⟩ | ⟨same, _⟩ <;>
    rw [same, sq_abs] <;> linarith [pow_two d.x, pow_two d.y]

end Displacement

/-- The way from one point to another. -/
def Point.wayTo (p q : Point) : Displacement :=
  ⟨value q.x - value p.x, value q.y - value p.y⟩

/-- A computed displacement that is so far from an exact one at most, along each axis. -/
structure Point.IsNear (p : Point) (d : Displacement) (error : ℚ) : Prop where
  x : Near p.x d.x error
  y : Near p.y d.y error

/-! ## Sums of two products -/

section Products

variable {x y : Float32} {exactX exactY boundX boundY shareX shareY : ℚ}

/-- Both factors are off by a share of their bounds, and the product is rounded. -/
theorem near_product (nearX : Near x exactX (shareX * boundX))
    (nearY : Near y exactY (shareY * boundY)) (leX : |exactX| ≤ boundX) (leY : |exactY| ≤ boundY)
    (nonnegX : 0 ≤ shareX) (nonnegY : 0 ≤ shareY) (shares : shareX + shareY ≤ 17 / 2 ^ 27)
    (smallX : boundX ≤ 2 ^ 20) (smallY : boundY ≤ 2 ^ 20) :
    Near (x * y) (exactX * exactY) (13 / 2 ^ 26 * (boundX * boundY) + 1 / 2 ^ 150) := by
  have zeroX := (abs_nonneg exactX).trans leX
  have zeroY := (abs_nonneg exactY).trans leY
  have area : 0 ≤ boundX * boundY := mul_nonneg zeroX zeroY
  have both : shareX * shareY ≤ 1 / 2 ^ 40 := by
    calc shareX * shareY ≤ 17 / 2 ^ 27 * (17 / 2 ^ 27) := by
          gcongr <;> linarith
      _ ≤ 1 / 2 ^ 40 := by norm_num
  have off : |value x * value y - exactX * exactY| ≤
      (shareX + shareY + shareX * shareY) * (boundX * boundY) := by
    calc |value x * value y - exactX * exactY|
        = |(value x - exactX) * exactY + exactX * (value y - exactY) +
            (value x - exactX) * (value y - exactY)| := by ring_nf
      _ ≤ |value x - exactX| * |exactY| + |exactX| * |value y - exactY| +
            |value x - exactX| * |value y - exactY| := by
          simp only [← abs_mul]
          exact abs_add_three _ _ _
      _ ≤ shareX * boundX * boundY + boundX * (shareY * boundY) +
            shareX * boundX * (shareY * boundY) := by
          have closeX := nearX.close
          have closeY := nearY.close
          gcongr
      _ = (shareX + shareY + shareX * shareY) * (boundX * boundY) := by ring
  have exact : |exactX * exactY| ≤ boundX * boundY := by
    rw [abs_mul]
    gcongr
  have least : |value x * value y - exactX * exactY| ≤ 71 / 2 ^ 29 * (boundX * boundY) :=
    off.trans (mul_le_mul_of_nonneg_right (by linarith) area)
  have size : |value x * value y| ≤ (1 + 71 / 2 ^ 29) * (boundX * boundY) := by
    have triangle := abs_sub_abs_le_abs_sub (value x * value y) (exactX * exactY)
    linarith
  have small : |value x * value y| ≤ 2 ^ 126 := by
    have square : boundX * boundY ≤ 2 ^ 20 * 2 ^ 20 := by gcongr
    linarith
  exact ((near_mul nearX.finite nearY.finite small).trans least).mono (by linarith)

/-- The sum of two numbers that are off by the same amount at most. -/
theorem near_sum {error : ℚ} (nearX : Near x exactX error) (nearY : Near y exactY error)
    (small : |exactX + exactY| + 2 * error ≤ 2 ^ 126) :
    Near (x + y) (exactX + exactY)
      (2 * error + (|exactX + exactY| + 2 * error) / 2 ^ 24) := by
  have off : |value x + value y - (exactX + exactY)| ≤ 2 * error := by
    have split : value x + value y - (exactX + exactY) =
        (value x - exactX) + (value y - exactY) := by ring
    rw [split]
    have triangle := abs_add_le (value x - exactX) (value y - exactY)
    linarith [nearX.close, nearY.close]
  have size := abs_sub_abs_le_abs_sub (value x + value y) (exactX + exactY)
  have rounded := near_add nearX.finite nearY.finite (by linarith)
  exact (rounded.trans off).mono (by linarith)

theorem near_difference {error : ℚ} (nearX : Near x exactX error) (nearY : Near y exactY error)
    (small : |exactX - exactY| + 2 * error ≤ 2 ^ 126) :
    Near (x - y) (exactX - exactY)
      (2 * error + (|exactX - exactY| + 2 * error) / 2 ^ 24) := by
  have off : |value x - value y - (exactX - exactY)| ≤ 2 * error := by
    have split : value x - value y - (exactX - exactY) =
        (value x - exactX) - (value y - exactY) := by ring
    rw [split]
    have triangle := abs_sub (value x - exactX) (value y - exactY)
    linarith [nearX.close, nearY.close]
  have size := abs_sub_abs_le_abs_sub (value x - value y) (exactX - exactY)
  have rounded := near_sub nearX.finite nearY.finite (by linarith)
  exact (rounded.trans off).mono (by linarith)

end Products

/-! ## Displacements -/

section Displacements

variable {p q : Point} {d e : Displacement} {boundP boundQ shareP shareQ : ℚ}

/-- What is known of a computed displacement with a bound for the exact one. -/
structure Point.IsWithin (p : Point) (d : Displacement) (share bound : ℚ) : Prop where
  near : p.IsNear d (share * bound)
  reach : d.reach ≤ bound
  nonneg : 0 ≤ share
  small : bound ≤ 2 ^ 20

theorem abs_cross_le (reachD : d.reach ≤ boundP) (reachE : e.reach ≤ boundQ) :
    |d.cross e| ≤ 2 * (boundP * boundQ) := by
  obtain ⟨leX, leY⟩ := Displacement.reach_le_iff.mp reachD
  obtain ⟨leX', leY'⟩ := Displacement.reach_le_iff.mp reachE
  have bound := (abs_nonneg d.x).trans leX
  calc |d.cross e| ≤ |d.x * e.y| + |d.y * e.x| := abs_sub _ _
    _ ≤ boundP * boundQ + boundP * boundQ := by
        rw [abs_mul, abs_mul]
        gcongr
    _ = 2 * (boundP * boundQ) := by ring

theorem abs_dot_le (reachD : d.reach ≤ boundP) (reachE : e.reach ≤ boundQ) :
    |d.dot e| ≤ 2 * (boundP * boundQ) := by
  obtain ⟨leX, leY⟩ := Displacement.reach_le_iff.mp reachE
  -- The dot product is the determinant with the second displacement turned by a right angle.
  have turned : d.dot e = d.cross ⟨-e.y, e.x⟩ := by
    simp only [Displacement.dot, Displacement.cross]
    ring
  rw [turned]
  exact abs_cross_le reachD (Displacement.reach_le_iff.mpr ⟨(abs_neg e.y).symm ▸ leY, leX⟩)

theorem area_le (withinP : p.IsWithin d shareP boundP) (withinQ : q.IsWithin e shareQ boundQ) :
    0 ≤ boundP * boundQ ∧ boundP * boundQ ≤ 2 ^ 40 := by
  have bound := d.reach_nonneg.trans withinP.reach
  have bound' := e.reach_nonneg.trans withinQ.reach
  refine ⟨mul_nonneg bound bound', ?_⟩
  calc boundP * boundQ ≤ 2 ^ 20 * 2 ^ 20 := by
        have smallP := withinP.small
        have smallQ := withinQ.small
        gcongr
    _ = 2 ^ 40 := by norm_num

theorem near_determinant (withinP : p.IsWithin d shareP boundP)
    (withinQ : q.IsWithin e shareQ boundQ) (shares : shareP + shareQ ≤ 17 / 2 ^ 27) :
    Near (p.determinant q) (d.cross e) (9 / 2 ^ 24 * (boundP * boundQ) + 3 / 2 ^ 150) := by
  obtain ⟨leX, leY⟩ := Displacement.reach_le_iff.mp withinP.reach
  obtain ⟨leX', leY'⟩ := Displacement.reach_le_iff.mp withinQ.reach
  obtain ⟨nonneg, area⟩ := area_le withinP withinQ
  have size : |d.x * e.y - d.y * e.x| ≤ _ := abs_cross_le withinP.reach withinQ.reach
  have first := near_product withinP.near.x withinQ.near.y leX leY' withinP.nonneg withinQ.nonneg
    shares withinP.small withinQ.small
  have second := near_product withinP.near.y withinQ.near.x leY leX' withinP.nonneg withinQ.nonneg
    shares withinP.small withinQ.small
  exact (near_difference first second (by linarith)).mono (by linarith)

theorem near_dot (withinP : p.IsWithin d shareP boundP) (withinQ : q.IsWithin e shareQ boundQ)
    (shares : shareP + shareQ ≤ 17 / 2 ^ 27) :
    Near (p.dot q) (d.dot e) (9 / 2 ^ 24 * (boundP * boundQ) + 3 / 2 ^ 150) := by
  obtain ⟨leX, leY⟩ := Displacement.reach_le_iff.mp withinP.reach
  obtain ⟨leX', leY'⟩ := Displacement.reach_le_iff.mp withinQ.reach
  obtain ⟨nonneg, area⟩ := area_le withinP withinQ
  have size : |d.x * e.x + d.y * e.y| ≤ _ := abs_dot_le withinP.reach withinQ.reach
  have first := near_product withinP.near.x withinQ.near.x leX leX' withinP.nonneg withinQ.nonneg
    shares withinP.small withinQ.small
  have second := near_product withinP.near.y withinQ.near.y leY leY' withinP.nonneg withinQ.nonneg
    shares withinP.small withinQ.small
  exact (near_sum first second (by linarith)).mono (by linarith)

theorem isWithin_self {bound : ℚ} (finite : p.IsFinite) (leX : |value p.x| ≤ bound)
    (leY : |value p.y| ≤ bound) (small : bound ≤ 2 ^ 20) :
    p.IsWithin ⟨value p.x, value p.y⟩ 0 bound := by
  refine ⟨⟨⟨finite.1, ?_⟩, ⟨finite.2, ?_⟩⟩, Displacement.reach_le_iff.mpr ⟨leX, leY⟩, le_rfl, small⟩
  · rw [sub_self, abs_zero, zero_mul]
  · rw [sub_self, abs_zero, zero_mul]

theorem isWithin_sub (finiteP : p.IsFinite) (finiteQ : q.IsFinite)
    (small : (p.wayTo q).reach ≤ 2 ^ 20) :
    (q - p).IsWithin (p.wayTo q) (1 / 2 ^ 24) (p.wayTo q).reach := by
  obtain ⟨leX, leY⟩ := Displacement.reach_le_iff.mp le_rfl
  have rounded {x y : Float32} (finite : x.isFinite = true) (finite' : y.isFinite = true)
      (le : |value y - value x| ≤ (p.wayTo q).reach) :
      Near (y - x) (value y - value x) (1 / 2 ^ 24 * (p.wayTo q).reach) :=
    (near_sub finite' finite (by linarith)).mono (by linarith)
  exact ⟨⟨rounded finiteP.1 finiteQ.1 leX, rounded finiteP.2 finiteQ.2 leY⟩, le_rfl, by norm_num,
    small⟩

/-! ## Directions -/

/-- The length of a displacement, up to a factor. -/
theorem sqrt_dot_bounds (within : p.IsWithin d (1 / 2 ^ 24) d.reach) (long : 1 / 2 ^ 13 ≤ d.reach) :
    (p.dot p).sqrt.isFinite = true ∧ d.reach / 5 ≤ value (p.dot p).sqrt ∧
      value (p.dot p).sqrt ≤ 6 * d.reach := by
  have dot := near_dot within within (by norm_num)
  have most := (abs_le.mp (abs_dot_le (d := d) (e := d) le_rfl le_rfl)).2
  have least := d.sq_reach_le
  obtain ⟨lower, upper⟩ := abs_le.mp dot.close
  have square : (1 / 2 ^ 13) ^ 2 ≤ d.reach ^ 2 := by gcongr
  rw [pow_two d.reach] at least square
  have low : 9 / 10 * (d.reach * d.reach) ≤ value (p.dot p) := by linarith
  have high : value (p.dot p) ≤ 21 / 10 * (d.reach * d.reach) := by linarith
  have positive : 0 < value (p.dot p) := by linarith
  obtain ⟨finite, root, below, above⟩ := sqrt_bounds dot.finite positive
  refine ⟨finite, le_of_sq_le_sq ?_ root.le, le_of_sq_le_sq ?_ (by linarith)⟩
  · rw [div_pow, pow_two d.reach]
    linarith
  · rw [mul_pow, pow_two d.reach]
    linarith

/-- The inverse length of a displacement, up to a factor. -/
theorem inverse_bounds (within : p.IsWithin d (1 / 2 ^ 24) d.reach) (long : 1 / 2 ^ 13 ≤ d.reach) :
    (1 / (p.dot p).sqrt).isFinite = true ∧ 1 / 7 ≤ value (1 / (p.dot p).sqrt) * d.reach ∧
      value (1 / (p.dot p).sqrt) * d.reach ≤ 6 := by
  obtain ⟨finite, low, high⟩ := sqrt_dot_bounds within long
  have positive : 0 < d.reach := by linarith
  have small := within.small
  generalize (p.dot p).sqrt = root at finite low high
  have some : 0 < value root := by linarith
  have most : 1 / value root * d.reach ≤ 5 := by
    rw [one_div_mul_eq_div, div_le_iff₀ some]
    linarith
  have least : 1 / 6 ≤ 1 / value root * d.reach := by
    rw [one_div_mul_eq_div, le_div_iff₀ some]
    linarith
  have inverse : 0 < 1 / value root := by positivity
  have bounded : 1 / value root ≤ 5 * 2 ^ 13 := by
    have scaled := mul_le_mul_of_nonneg_left long inverse.le
    linarith
  have rounded := near_div (x := 1) (by decide) finite some.ne' (by
    rw [value_one, abs_of_pos inverse]
    linarith)
  rw [value_one, abs_of_pos inverse] at rounded
  obtain ⟨lower, upper⟩ := abs_le.mp rounded.close
  refine ⟨rounded.finite, ?_, ?_⟩
  · have scaled := mul_le_mul_of_nonneg_right lower positive.le
    linarith
  · have scaled := mul_le_mul_of_nonneg_right upper positive.le
    linarith

theorem near_scaled {x factor : Float32} {exact bound : ℚ}
    (near : Near x exact (1 / 2 ^ 24 * bound)) (le : |exact| ≤ bound)
    (finite : factor.isFinite = true) (positive : 0 < value factor)
    (least : 1 / 7 ≤ value factor * bound) (most : value factor * bound ≤ 6) :
    Near (x * factor) (value factor * exact) (17 / 2 ^ 27 * (value factor * bound)) := by
  have off : |value x * value factor - value factor * exact| ≤
      1 / 2 ^ 24 * (value factor * bound) := by
    have split : value x * value factor - value factor * exact =
        value factor * (value x - exact) := by ring
    rw [split, abs_mul, abs_of_pos positive]
    have scaled := mul_le_mul_of_nonneg_left near.close positive.le
    linarith
  have size : |value x * value factor| ≤ (1 + 1 / 2 ^ 24) * (value factor * bound) := by
    have triangle := abs_sub_abs_le_abs_sub (value x * value factor) (value factor * exact)
    have scaled := mul_le_mul_of_nonneg_left le positive.le
    rw [abs_mul (value factor), abs_of_pos positive] at triangle
    linarith
  exact ((near_mul near.finite finite (by linarith)).trans off).mono (by linarith)

theorem exists_isWithin_normalize (within : p.IsWithin d (1 / 2 ^ 24) d.reach)
    (long : 1 / 2 ^ 13 ≤ d.reach) :
    ∃ factor, 0 < factor ∧ 1 / 7 ≤ factor * d.reach ∧ factor * d.reach ≤ 6 ∧
      p.normalize.IsWithin (d.scale factor) (17 / 2 ^ 27) (factor * d.reach) := by
  obtain ⟨finite, least, most⟩ := inverse_bounds within long
  have long' : 0 < d.reach := by linarith
  have positive : 0 < value (1 / (p.dot p).sqrt) := by
    by_contra negative
    have product := mul_nonpos_of_nonpos_of_nonneg (not_lt.mp negative) long'.le
    linarith
  obtain ⟨leX, leY⟩ := Displacement.reach_le_iff.mp (le_refl d.reach)
  refine ⟨_, positive, least, most, ⟨?_, ?_⟩, ?_, by norm_num, by linarith⟩
  · exact near_scaled within.near.x leX finite positive least most
  · exact near_scaled within.near.y leY finite positive least most
  · refine Displacement.reach_le_iff.mpr ⟨?_, ?_⟩
    · change |_ * d.x| ≤ _
      rw [abs_mul, abs_of_pos positive]
      exact mul_le_mul_of_nonneg_left leX positive.le
    · change |_ * d.y| ≤ _
      rw [abs_mul, abs_of_pos positive]
      exact mul_le_mul_of_nonneg_left leY positive.le

end Displacements

end Troupe.Geometry
