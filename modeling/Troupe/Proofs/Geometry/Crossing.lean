import Troupe.Geometry.Segment
import Troupe.Proofs.Number.Opposite
import Troupe.Proofs.Number.Order

/-! # Crossing paths, seen from either of them

The test for paths in different directions is the same from both sides, down to the last bit: both
determinants change their sign together, and the fractions of the two paths trade places. Nothing
of the kind holds for parallel paths. How far the second may be off the line of the first is
measured by determinants with the first, which grow with its length.

* `crossesAt_swap` — paths in different directions.
* `crosses_swap_iff` — the test as a whole: the order matters exactly for parallel paths of which
  one, but not the other, takes both for a single line that it shares.
-/

namespace Troupe.Geometry

open Troupe.Number

theorem Point.opposite_determinant_swap (p q : Point) :
    Opposite (fields32 (p.determinant q)) (fields32 (q.determinant p)) := by
  change Opposite (fields32 (p.x * q.y - p.y * q.x)) (fields32 (q.x * p.y - q.y * p.x))
  rw [mul_swap q.x, mul_swap q.y]
  exact opposite_sub_swap _ _

theorem Point.opposite_determinant_sub (p q other : Point) :
    Opposite (fields32 ((p - q).determinant other)) (fields32 ((q - p).determinant other)) :=
  ((opposite_sub_swap p.x q.x).mul_right other.y).sub
    ((opposite_sub_swap p.y q.y).mul_right other.x)

namespace Segment

theorem inUnitInterval_eq_of_akin {t u : Float32} (akin : Akin (fields32 t) (fields32 u)) :
    inUnitInterval t = inUnitInterval u := by
  have zero : fields32 0 = .zero .positive := rfl
  obtain ⟨mantissa, exponent, positive, one⟩ :
      ∃ mantissa exponent positive, fields32 1 = .finite .positive mantissa exponent positive :=
    ⟨_, _, _, rfl⟩
  unfold inUnitInterval
  simp only [le_iff_compare, zero, one]
  generalize fields32 t = left at akin
  generalize fields32 u = right at akin
  cases akin with
  | notANumber | finite => rfl
  | @infinity sign other => cases sign <;> cases other <;> rfl
  | @zero sign other => cases sign <;> cases other <;> rfl

/-! ## Different directions -/

theorem crossesAt_swap (a b : Segment) : a.crossesAt b = b.crossesAt a := by
  have determinants := Point.opposite_determinant_swap a.direction b.direction
  have alongA := inUnitInterval_eq_of_akin
    (akin_div (Point.opposite_determinant_sub b.start a.start b.direction) determinants)
  have alongB := inUnitInterval_eq_of_akin
    (akin_div (Point.opposite_determinant_sub b.start a.start a.direction) determinants)
  unfold crossesAt
  dsimp only
  rw [alongA, alongB, Bool.and_comm]

/-! ## Parallel paths -/

/-- Two paths that go somewhere, in directions that are taken for the same. -/
def IsParallel (a b : Segment) (tolerance : Float32) : Prop :=
  a.isDegenerate = false ∧ b.isDegenerate = false ∧
    ¬ tolerance < (a.direction.determinant b.direction).abs

/-- Whether a path takes another, parallel one for a part of its own line that it shares. -/
def runsAlong (a b : Segment) (tolerance : Float32) : Bool :=
  a.isCollinear b tolerance && a.overlapsAlong b

theorem abs_determinant_swap (a b : Segment) :
    (a.direction.determinant b.direction).abs = (b.direction.determinant a.direction).abs :=
  abs_eq_of_opposite (Point.opposite_determinant_swap a.direction b.direction)

theorem IsParallel.swap {a b : Segment} {tolerance : Float32}
    (parallel : a.IsParallel b tolerance) : b.IsParallel a tolerance :=
  ⟨parallel.2.1, parallel.1, abs_determinant_swap a b ▸ parallel.2.2⟩

theorem crosses_of_isParallel {a b : Segment} {tolerance : Float32}
    (parallel : a.IsParallel b tolerance) : a.crosses b tolerance = a.runsAlong b tolerance := by
  obtain ⟨goes, other, near⟩ := parallel
  simp only [crosses, goes, other, Bool.or_self, Bool.false_eq_true, if_false, if_neg near,
    runsAlong]

theorem crosses_swap_of_not_isParallel {a b : Segment} {tolerance : Float32}
    (apart : ¬ a.IsParallel b tolerance) : a.crosses b tolerance = b.crosses a tolerance := by
  unfold crosses
  rw [Bool.or_comm b.isDegenerate, ← abs_determinant_swap a b]
  split
  case isTrue => rfl
  case isFalse goes =>
    rw [Bool.not_eq_true, Bool.or_eq_false_iff] at goes
    split
    case isTrue => exact crossesAt_swap a b
    case isFalse near => exact absurd ⟨goes.1, goes.2, near⟩ apart

theorem crosses_swap_iff (a b : Segment) (tolerance : Float32) :
    a.crosses b tolerance = b.crosses a tolerance ↔
      (a.IsParallel b tolerance → a.runsAlong b tolerance = b.runsAlong a tolerance) := by
  by_cases parallel : a.IsParallel b tolerance
  case pos =>
    rw [crosses_of_isParallel parallel, crosses_of_isParallel parallel.swap]
    exact ⟨fun same _ => same, fun same => same parallel⟩
  case neg =>
    exact iff_of_true (crosses_swap_of_not_isParallel parallel) fun along => absurd along parallel

end Segment

end Troupe.Geometry
