import Mathlib
import Troupe.Proofs.Geometry.Apart
import Troupe.Proofs.Geometry.Crossing
import Troupe.Proofs.Number.Double
import Troupe.Proofs.Number.Single

/-! # Paths along an axis

Of a path along one of the axes every step but one is computed without an error, or with one that
changes no order: its displacement across the axis is zero, so that a determinant is a single
product and a projection is another. What is left of the test for two such paths is how far they run
beside each other, and the distance between their lines multiplied by the length of the path that
the test starts from. It is the length that makes the test depend on the order of the paths.

* `Axis`, `Segment.IsStraight` — paths along an axis, a pixel long at least.
* `Segment.shared`, `Segment.offset` — what is left of the test.
* `runsAlong_iff_of_isStraight` — the test.
* `crosses_swap_iff_of_isStraight` — the paths for which the order makes no difference.
-/

namespace Troupe.Number

open Float.Model (UnpackedFloat Format)
open Float.Model.UnpackedFloat

variable {x y : Float32}

theorem signed_abs (number : x.isNaN = false) : Signed .positive (fields32 x.abs) := by
  change (fields32 x).isNaN = false at number
  change Signed .positive (fields32 (ofFields32 (fields32 x).abs))
  refine Signed.packed ?_
  generalize fields32 x = fields at number
  cases fields with
  | notANumber => cases number
  | infinity => exact .infinity
  | zero => exact .zero
  | finite => exact .finite

/-- There is one number of a magnitude. -/
theorem abs_eq_of_abs_value (finite : x.isFinite = true) (finite' : y.isFinite = true)
    (same : |value x| = |value y|) : x.abs = y.abs := by
  obtain ⟨kept, size⟩ := value_abs finite
  obtain ⟨kept', size'⟩ := value_abs finite'
  refine eq_of_fields32 kept ((isRepresented_of_isFinite kept).eq_of_valueOf_eq
    (isRepresented_of_isFinite kept') (signed_abs (isNaN_of_isFinite finite))
    (signed_abs (isNaN_of_isFinite finite')) ?_)
  exact size.trans (same.trans size'.symm)

theorem value_smaller (finite : x.isFinite = true) (finite' : y.isFinite = true) :
    (smaller x y).isFinite = true ∧ value (smaller x y) = min (value x) (value y) := by
  simp only [smaller, isNaN_of_isFinite finite', Bool.false_eq_true, if_false,
    lt_iff_value finite finite']
  split
  case isTrue less => exact ⟨finite, (min_eq_left less.le).symm⟩
  case isFalse notLess => exact ⟨finite', (min_eq_right (not_lt.mp notLess)).symm⟩

theorem value_larger (finite : x.isFinite = true) (finite' : y.isFinite = true) :
    (larger x y).isFinite = true ∧ value (larger x y) = max (value x) (value y) := by
  simp only [larger, isNaN_of_isFinite finite', Bool.false_eq_true, if_false,
    lt_iff_value finite' finite]
  split
  case isTrue less => exact ⟨finite, (max_eq_left less.le).symm⟩
  case isFalse notLess => exact ⟨finite', (max_eq_right (not_lt.mp notLess)).symm⟩

/-- The smaller of two numbers is below the larger of two others if one of the former is below one
    of the latter. -/
theorem smaller_lt_larger_iff {z w : Float32} (finiteX : x.isFinite = true)
    (finiteY : y.isFinite = true) (finiteZ : z.isFinite = true) (finiteW : w.isFinite = true) :
    smaller x y < larger z w ↔ (x < z ∨ x < w) ∨ y < z ∨ y < w := by
  obtain ⟨low, least⟩ := value_smaller finiteX finiteY
  obtain ⟨high, most⟩ := value_larger finiteZ finiteW
  rw [lt_iff_value low high, least, most, min_lt_iff, lt_max_iff, lt_max_iff,
    lt_iff_value finiteX finiteZ, lt_iff_value finiteX finiteW, lt_iff_value finiteY finiteZ,
    lt_iff_value finiteY finiteW]

end Troupe.Number

namespace Troupe.Geometry

open Troupe.Number

/-! ## The two axes -/

inductive Axis where
  | x
  | y
deriving DecidableEq

namespace Axis

def along : Axis → Point → Float32
  | x => Point.x
  | y => Point.y

def across : Axis → Point → Float32
  | x => Point.y
  | y => Point.x

variable {axis : Axis} {p q : Point}

theorem along_sub (axis : Axis) (p q : Point) :
    axis.along (p - q) = axis.along p - axis.along q := by
  cases axis <;> rfl

theorem across_sub (axis : Axis) (p q : Point) :
    axis.across (p - q) = axis.across p - axis.across q := by
  cases axis <;> rfl

theorem isFinite_along (axis : Axis) (finite : p.IsFinite) : (axis.along p).isFinite = true := by
  cases axis
  · exact finite.1
  · exact finite.2

theorem isFinite_across (axis : Axis) (finite : p.IsFinite) : (axis.across p).isFinite = true := by
  cases axis
  · exact finite.2
  · exact finite.1

/-- Without a displacement across the axis a determinant is a single product. -/
theorem abs_determinant_eq (finite : p.IsFinite) (finite' : q.IsFinite)
    (flat : value (axis.across p) = 0)
    (kept : (axis.along p * axis.across q).isFinite = true) :
    (p.determinant q).abs = (axis.along p * axis.across q).abs := by
  obtain ⟨vanishes, zero⟩ := value_mul_of_zero (axis.isFinite_across finite)
    (axis.isFinite_along finite') (.inl flat)
  cases axis with
  | x =>
    have rounded : IsRounded (p.determinant q) (value (p.x * q.y) - value (p.y * q.x)) :=
      isRounded_sub kept vanishes
    change value (p.y * q.x) = 0 at zero
    rw [zero, sub_zero] at rounded
    obtain ⟨finite, same⟩ := rounded.exact_value kept
    exact abs_eq_of_abs_value finite kept (congrArg _ same)
  | y =>
    have rounded : IsRounded (p.determinant q) (value (p.x * q.y) - value (p.y * q.x)) :=
      isRounded_sub vanishes kept
    change value (p.x * q.y) = 0 at zero
    rw [zero, zero_sub] at rounded
    obtain ⟨finite, same⟩ := rounded.exact_neg kept
    exact abs_eq_of_abs_value finite kept (by rw [same, abs_neg]; rfl)

/-- Without a component across the axis a projection is a single product. -/
theorem value_dot_eq (finite : p.IsFinite) (finite' : q.IsFinite)
    (flat : value (axis.across q) = 0) (kept : (axis.along p * axis.along q).isFinite = true) :
    (p.dot q).isFinite = true ∧ value (p.dot q) = value (axis.along p * axis.along q) := by
  obtain ⟨vanishes, zero⟩ := value_mul_of_zero (axis.isFinite_across finite)
    (axis.isFinite_across finite') (.inr flat)
  cases axis with
  | x =>
    have rounded : IsRounded (p.dot q) (value (p.x * q.x) + value (p.y * q.y)) :=
      isRounded_add kept vanishes
    change value (p.y * q.y) = 0 at zero
    rw [zero, add_zero] at rounded
    exact rounded.exact_value kept
  | y =>
    have rounded : IsRounded (p.dot q) (value (p.x * q.x) + value (p.y * q.y)) :=
      isRounded_add vanishes kept
    change value (p.x * q.x) = 0 at zero
    rw [zero, zero_add] at rounded
    exact rounded.exact_value kept

end Axis

theorem Point.IsInRange.abs_value_sub_le {p q : Point} (axis : Axis) (rangeP : p.IsInRange)
    (rangeQ : q.IsInRange) :
    (q - p).IsFinite ∧ |value (axis.along (q - p))| ≤ 2 ^ 18 ∧
      |value (axis.across (q - p))| ≤ 2 ^ 18 := by
  obtain ⟨⟨nearX, nearY⟩, reach, _, _⟩ := rangeP.isWithin_sub rangeQ
  obtain ⟨leX, leY⟩ := Displacement.reach_le_iff.mp reach
  have most := rangeP.reach_wayTo rangeQ
  have x : |value (q - p).x| ≤ 2 ^ 18 := by
    have triangle := abs_sub_abs_le_abs_sub (value (q - p).x) (p.wayTo q).x
    linarith [nearX.close]
  have y : |value (q - p).y| ≤ 2 ^ 18 := by
    have triangle := abs_sub_abs_le_abs_sub (value (q - p).y) (p.wayTo q).y
    linarith [nearY.close]
  refine ⟨⟨nearX.finite, nearY.finite⟩, ?_⟩
  cases axis
  · exact ⟨x, y⟩
  · exact ⟨y, x⟩

namespace Segment

variable {a b s : Segment} {axis : Axis} {tolerance : Float32}

/-! ## Straight paths -/

/-- Whether a path runs along an axis, for a pixel at least. -/
structure IsStraight (s : Segment) (axis : Axis) : Prop where
  range : s.IsInRange
  flat : axis.across s.start = axis.across s.finish
  long : s.least axis.along + 1 ≤ s.greatest axis.along

instance (s : Segment) (axis : Axis) : Decidable (s.IsStraight axis) :=
  decidable_of_iff (s.IsInRange ∧ axis.across s.start = axis.across s.finish ∧
      s.least axis.along + 1 ≤ s.greatest axis.along)
    ⟨fun ⟨range, flat, long⟩ => ⟨range, flat, long⟩, fun ⟨range, flat, long⟩ => ⟨range, flat, long⟩⟩

/-- How far two paths run beside each other along an axis; not positive if they do not. -/
def shared (a b : Segment) (axis : Axis) : ℚ :=
  min (a.greatest axis.along) (b.greatest axis.along) -
    max (a.least axis.along) (b.least axis.along)

/-- How far another path is off the line of a path, multiplied by the length of the latter. -/
def offset (a b : Segment) (axis : Axis) : Float32 :=
  (axis.along a.direction * (axis.across b.start - axis.across a.start)).abs

theorem shared_comm (a b : Segment) (axis : Axis) : a.shared b axis = b.shared a axis := by
  rw [shared, shared, min_comm, max_comm]

theorem exists_least (s : Segment) (axis : Axis) :
    ∃ p ∈ s.ends, value (axis.along p) = s.least axis.along := by
  rcases min_choice (value (axis.along s.start)) (value (axis.along s.finish)) with first | last
  · exact ⟨s.start, by simp [ends], first.symm⟩
  · exact ⟨s.finish, by simp [ends], last.symm⟩

theorem exists_greatest (s : Segment) (axis : Axis) :
    ∃ p ∈ s.ends, value (axis.along p) = s.greatest axis.along := by
  rcases max_choice (value (axis.along s.start)) (value (axis.along s.finish)) with first | last
  · exact ⟨s.start, by simp [ends], first.symm⟩
  · exact ⟨s.finish, by simp [ends], last.symm⟩

namespace IsStraight

theorem isFinite_direction (straight : s.IsStraight axis) : s.direction.IsFinite := by
  have within := straight.range.start.isWithin_sub straight.range.finish
  exact ⟨within.near.x.finite, within.near.y.finite⟩

theorem value_across (straight : s.IsStraight axis) :
    value (axis.across s.direction) = 0 := by
  have finite := axis.isFinite_across straight.range.finish.finite
  have rounded := isRounded_sub finite finite
  rw [sub_self] at rounded
  rw [direction, Axis.across_sub, straight.flat]
  exact rounded.exact_zero.2

theorem long_along (straight : s.IsStraight axis) :
    1 ≤ |value (axis.along s.finish) - value (axis.along s.start)| := by
  have long := straight.long
  rw [← max_sub_min_eq_abs]
  unfold least greatest at long
  linarith

theorem isDegenerate (straight : s.IsStraight axis) : s.isDegenerate = false := by
  have finite := axis.isFinite_along straight.range.start.finite
  have finite' := axis.isFinite_along straight.range.finish.finite
  have long := straight.long_along
  obtain ⟨leX, leY⟩ := Displacement.reach_le_iff.mp
    (straight.range.start.reach_wayTo straight.range.finish)
  have goes : value (axis.along s.direction) ≠ 0 := by
    intro zero
    have most : |value (axis.along s.finish) - value (axis.along s.start)| ≤ 2 ^ 17 := by
      cases axis
      · exact leX
      · exact leY
    have near := near_sub finite' finite (most.trans (by norm_num))
    have close := near.close
    rw [direction, Axis.along_sub] at zero
    rw [zero, zero_sub, abs_neg] at close
    linarith
  have moves : (axis.along s.direction == 0) = false := by
    rw [Bool.eq_false_iff, ne_eq, beq_iff_value (axis.isFinite_along straight.isFinite_direction)
      (by decide)]
    exact goes
  change (s.direction.x == 0 && s.direction.y == 0) = false
  cases axis with
  | x => exact Bool.and_eq_false_imp.mpr fun same => nomatch moves.symm.trans same
  | y => exact Bool.and_eq_false_imp.mpr fun _ => moves

end IsStraight

/-! ## Lines -/

theorem IsStraight.isFinite_product (straight : s.IsStraight axis) {q : Point}
    (range : q.IsInRange) :
    (axis.along s.direction * axis.across (q - s.start)).isFinite = true := by
  obtain ⟨-, long, -⟩ := straight.range.start.abs_value_sub_le axis straight.range.finish
  obtain ⟨finite, -, wide⟩ := straight.range.start.abs_value_sub_le axis range
  refine (near_mul (axis.isFinite_along straight.isFinite_direction) (axis.isFinite_across finite)
    ?_).finite
  rw [abs_mul]
  calc |value (axis.along s.direction)| * |value (axis.across (q - s.start))|
      ≤ 2 ^ 18 * 2 ^ 18 := mul_le_mul long wide (abs_nonneg _) (by norm_num)
    _ ≤ 2 ^ 126 := by norm_num

/-- Both ends of a path are equally far off the line of another along the same axis. -/
theorem isCollinear_iff_of_isStraight (first : a.IsStraight axis) (second : b.IsStraight axis) :
    a.isCollinear b tolerance = true ↔ a.offset b axis ≤ tolerance := by
  have measured {q : Point} (range : q.IsInRange) (level : axis.across q = axis.across b.start) :
      (a.direction.determinant (q - a.start)).abs = a.offset b axis := by
    obtain ⟨finite, -, -⟩ := first.range.start.abs_value_sub_le axis range
    rw [Axis.abs_determinant_eq first.isFinite_direction finite first.value_across
      (first.isFinite_product range), Axis.across_sub, level, offset]
  simp only [isCollinear, measured second.range.start rfl,
    measured second.range.finish second.flat.symm, Bool.and_self, decide_eq_true_eq]

/-! ## Projections -/

/-- The displacement of a path along an axis is as long as the path. -/
theorem IsStraight.reach_way (straight : s.IsStraight axis) :
    ∃ length : ℚ, 1 ≤ |length| ∧ s.way.reach = |length| ∧
      ∀ (p : Point) (factor share : ℚ),
        p.IsWithin (s.way.scale factor) share (factor * s.way.reach) →
          Near (axis.along p) (factor * length) (share * (factor * |length|)) := by
  have flat : value (axis.across s.finish) - value (axis.across s.start) = 0 := by
    rw [straight.flat, sub_self]
  refine ⟨_, straight.long_along, ?_⟩
  cases axis with
  | x =>
    have reach : s.way.reach = |value s.finish.x - value s.start.x| := by
      change max _ |value (Axis.x.across s.finish) - value (Axis.x.across s.start)| = _
      rw [flat, abs_zero]
      exact max_eq_left (abs_nonneg _)
    exact ⟨reach, fun p factor share within => by rw [reach] at within; exact within.near.x⟩
  | y =>
    have reach : s.way.reach = |value s.finish.y - value s.start.y| := by
      change max |value (Axis.y.across s.finish) - value (Axis.y.across s.start)| _ = _
      rw [flat, abs_zero]
      exact max_eq_right (abs_nonneg _)
    exact ⟨reach, fun p factor share within => by rw [reach] at within; exact within.near.y⟩

/-- The direction of a path along an axis has no component across it, and one along it that is
    neither small nor large. -/
theorem IsStraight.value_normalize (straight : s.IsStraight axis) :
    s.direction.normalize.IsFinite ∧ value (axis.across s.direction.normalize) = 0 ∧
      1 / 8 ≤ |value (axis.along s.direction.normalize)| ∧
      |value (axis.along s.direction.normalize)| ≤ 7 := by
  have within := straight.range.start.isWithin_sub straight.range.finish
  obtain ⟨length, long, reach, component⟩ := straight.reach_way
  have far : 1 / 2 ^ 13 ≤ s.way.reach := by
    rw [reach]
    linarith
  obtain ⟨factor, positive, least, most, unit⟩ := exists_isWithin_normalize within far
  obtain ⟨inverse, -, -⟩ := inverse_bounds within far
  have near := component s.direction.normalize factor _ unit
  have across : axis.across s.direction.normalize =
      axis.across s.direction * (1 / (s.direction.dot s.direction).sqrt) := by
    cases axis <;> rfl
  refine ⟨⟨unit.near.x.finite, unit.near.y.finite⟩, ?_, ?_⟩
  · rw [across]
    exact (value_mul_of_zero (axis.isFinite_across straight.isFinite_direction) inverse
      (.inl straight.value_across)).2
  · change 1 / 7 ≤ factor * s.way.reach at least
    change factor * s.way.reach ≤ 6 at most
    rw [reach] at least most
    have size : |factor * length| = factor * |length| := by rw [abs_mul, abs_of_pos positive]
    have close :=
      abs_sub_abs_le_abs_sub (value (axis.along s.direction.normalize)) (factor * length)
    have close' :=
      abs_sub_abs_le_abs_sub (factor * length) (value (axis.along s.direction.normalize))
    rw [abs_sub_comm (factor * length)] at close'
    have error := near.close
    rw [size] at close close'
    constructor <;> linarith

/-- A projection on the direction of a path along an axis is a product that is rounded once. -/
theorem IsStraight.near_dot (straight : s.IsStraight axis) {p : Point} (range : p.IsInRange) :
    Near (axis.along p * axis.along s.direction.normalize)
        (value (axis.along p) * value (axis.along s.direction.normalize)) (1 / 32) ∧
      (p.dot s.direction.normalize).isFinite = true ∧
      value (p.dot s.direction.normalize) =
        value (axis.along p * axis.along s.direction.normalize) := by
  obtain ⟨finite, flat, -, most⟩ := straight.value_normalize
  have place : |value (axis.along p)| ≤ 2 ^ 16 := by
    cases axis
    · exact range.x
    · exact range.y
  have size : |value (axis.along p) * value (axis.along s.direction.normalize)| ≤ 2 ^ 16 * 7 := by
    rw [abs_mul]
    exact mul_le_mul place most (abs_nonneg _) (by norm_num)
  have near := near_mul (axis.isFinite_along range.finite) (axis.isFinite_along finite)
    (size.trans (by norm_num))
  exact ⟨near.mono (by linarith), Axis.value_dot_eq range.finite finite flat near.finite⟩

/-- The projections on the direction of a path along an axis are in the order of their places along
    the axis, or in the opposite one. -/
theorem IsStraight.exists_sense (straight : s.IsStraight axis) :
    ∃ sense : ℚ, (sense = 1 ∨ sense = -1) ∧ ∀ p q : Point, p.IsInRange → q.IsInRange →
      (sense * value (axis.along p) ≤ sense * value (axis.along q) →
        ¬ q.dot s.direction.normalize < p.dot s.direction.normalize) ∧
      (sense * value (axis.along p) + 1 ≤ sense * value (axis.along q) →
        p.dot s.direction.normalize < q.dot s.direction.normalize) := by
  obtain ⟨finite, -, least, -⟩ := straight.value_normalize
  -- The sense is the sign of the direction; what is left of the factor keeps every order.
  obtain ⟨sense, unit, turned⟩ : ∃ sense : ℚ, (sense = 1 ∨ sense = -1) ∧
      value (axis.along s.direction.normalize) =
        sense * |value (axis.along s.direction.normalize)| := by
    rcases le_total 0 (value (axis.along s.direction.normalize)) with nonneg | nonpos
    · exact ⟨1, .inl rfl, by rw [abs_of_nonneg nonneg, one_mul]⟩
    · exact ⟨-1, .inr rfl, by rw [abs_of_nonpos nonpos, neg_one_mul, neg_neg]⟩
  have order (x : ℚ) : x * value (axis.along s.direction.normalize) =
      sense * x * |value (axis.along s.direction.normalize)| := by
    rw [mul_comm sense x, mul_assoc, ← turned]
  refine ⟨sense, unit, fun p q rangeP rangeQ => ?_⟩
  obtain ⟨nearP, finiteP, sameP⟩ := straight.near_dot rangeP
  obtain ⟨nearQ, finiteQ, sameQ⟩ := straight.near_dot rangeQ
  rw [lt_iff_value finiteQ finiteP, lt_iff_value finiteP finiteQ, sameP, sameQ, not_lt]
  constructor
  -- rounding keeps the order
  · intro le
    have nearestP := (isRounded_mul (axis.isFinite_along rangeP.finite)
      (axis.isFinite_along finite)).isNearest nearP.finite
    have nearestQ := (isRounded_mul (axis.isFinite_along rangeQ.finite)
      (axis.isFinite_along finite)).isNearest nearQ.finite
    refine nearestP.le_of_le wide_binary32 nearestQ ?_
    rw [order, order]
    exact mul_le_mul_of_nonneg_right le (abs_nonneg _)
  -- and does not close a gap of a pixel
  · intro far
    have closeP := (abs_le.mp nearP.close).2
    have closeQ := (abs_le.mp nearQ.close).1
    have scaled := mul_le_mul_of_nonneg_right far
      (abs_nonneg (value (axis.along s.direction.normalize)))
    rw [order] at closeP closeQ
    linarith

/-! ## The test -/

theorem IsStraight.isFinite_dot (straight : a.IsStraight axis) (second : b.IsInRange) {p : Point}
    (member : p ∈ a.ends ++ b.ends) : (p.dot a.direction.normalize).isFinite = true := by
  rcases List.mem_append.mp member with own | other
  · exact (straight.near_dot (straight.range.of_mem_ends own)).2.1
  · exact (straight.near_dot (second.of_mem_ends other)).2.1

theorem overlapsAlong_iff
    (finite : ∀ p ∈ a.ends ++ b.ends, (p.dot a.direction.normalize).isFinite = true) :
    a.overlapsAlong b = true ↔
      (∃ q ∈ b.ends, ∃ p ∈ a.ends, q.dot a.direction.normalize < p.dot a.direction.normalize) ∧
        ∃ p ∈ a.ends, ∃ q ∈ b.ends, p.dot a.direction.normalize < q.dot a.direction.normalize := by
  have start := finite a.start (by simp [ends])
  have finish := finite a.finish (by simp [ends])
  have start' := finite b.start (by simp [ends])
  have finish' := finite b.finish (by simp [ends])
  simp only [overlapsAlong, Bool.and_eq_true, decide_eq_true_eq,
    smaller_lt_larger_iff start' finish' start finish,
    smaller_lt_larger_iff start finish start' finish', ends, List.exists_mem_cons_iff,
    List.not_mem_nil, false_and, exists_false, or_false]

/-- One of two paths that do not run beside each other ends before the other begins, and so do their
    projections. -/
theorem not_overlapsAlong_of_isStraight (first : a.IsStraight axis) (second : b.IsStraight axis)
    (beyond : a.shared b axis ≤ 0) : ¬ a.overlapsAlong b = true := by
  rw [overlapsAlong_iff fun p member => first.isFinite_dot second.range member]
  rintro ⟨⟨q, ofB, p, ofA, less⟩, p', ofA', q', ofB', less'⟩
  obtain ⟨sense, unit, order⟩ := first.exists_sense
  have keeps := (order p q (first.range.of_mem_ends ofA) (second.range.of_mem_ends ofB)).1
  have keeps' := (order q' p' (second.range.of_mem_ends ofB') (first.range.of_mem_ends ofA')).1
  obtain ⟨leastA, mostA⟩ := value_bounds axis.along ofA
  obtain ⟨leastB, mostB⟩ := value_bounds axis.along ofB
  obtain ⟨leastA', mostA'⟩ := value_bounds axis.along ofA'
  obtain ⟨leastB', mostB'⟩ := value_bounds axis.along ofB'
  -- Neither path is beyond itself: each is a pixel long.
  have longA := first.long
  have longB := second.long
  rw [shared, sub_nonpos, min_le_iff, le_max_iff, le_max_iff] at beyond
  rcases beyond with (never | before) | after | never
  · linarith
  · rcases unit with rfl | rfl
    · exact keeps (by linarith) less
    · exact keeps' (by linarith) less'
  · rcases unit with rfl | rfl
    · exact keeps' (by linarith) less'
    · exact keeps (by linarith) less
  · linarith

/-- Each of two paths that run beside each other for a pixel begins that much before the other ends,
    and so their projections overlap. -/
theorem overlapsAlong_of_isStraight (first : a.IsStraight axis) (second : b.IsStraight axis)
    (beside : 1 ≤ a.shared b axis) : a.overlapsAlong b = true := by
  rw [overlapsAlong_iff fun p member => first.isFinite_dot second.range member]
  obtain ⟨sense, unit, order⟩ := first.exists_sense
  obtain ⟨firstA, ofA, leastA⟩ := a.exists_least axis
  obtain ⟨lastA, ofA', mostA⟩ := a.exists_greatest axis
  obtain ⟨firstB, ofB, leastB⟩ := b.exists_least axis
  obtain ⟨lastB, ofB', mostB⟩ := b.exists_greatest axis
  have rangeA := first.range.of_mem_ends ofA
  have rangeA' := first.range.of_mem_ends ofA'
  have rangeB := second.range.of_mem_ends ofB
  have rangeB' := second.range.of_mem_ends ofB'
  have lowerA := le_max_left (a.least axis.along) (b.least axis.along)
  have lowerB := le_max_right (a.least axis.along) (b.least axis.along)
  have upperA := min_le_left (a.greatest axis.along) (b.greatest axis.along)
  have upperB := min_le_right (a.greatest axis.along) (b.greatest axis.along)
  unfold shared at beside
  rcases unit with rfl | rfl
  · exact ⟨⟨firstB, ofB, lastA, ofA', (order firstB lastA rangeB rangeA').2 (by linarith)⟩,
      firstA, ofA, lastB, ofB', (order firstA lastB rangeA rangeB').2 (by linarith)⟩
  · exact ⟨⟨lastB, ofB', firstA, ofA, (order lastB firstA rangeB' rangeA).2 (by linarith)⟩,
      lastA, ofA', firstB, ofB, (order lastA firstB rangeA' rangeB).2 (by linarith)⟩

theorem overlapsAlong_iff_of_isStraight (first : a.IsStraight axis) (second : b.IsStraight axis)
    (settled : a.shared b axis ≤ 0 ∨ 1 ≤ a.shared b axis) :
    a.overlapsAlong b = true ↔ 1 ≤ a.shared b axis := by
  rcases settled with beyond | beside
  · exact iff_of_false (not_overlapsAlong_of_isStraight first second beyond) (by linarith)
  · exact iff_of_true (overlapsAlong_of_isStraight first second beside) beside

theorem runsAlong_iff_of_isStraight (first : a.IsStraight axis) (second : b.IsStraight axis)
    (settled : a.shared b axis ≤ 0 ∨ 1 ≤ a.shared b axis) :
    a.runsAlong b tolerance = true ↔ a.offset b axis ≤ tolerance ∧ 1 ≤ a.shared b axis := by
  rw [runsAlong, Bool.and_eq_true, isCollinear_iff_of_isStraight first second,
    overlapsAlong_iff_of_isStraight first second settled]

/-- Paths along the same axis are parallel, unless the tolerance is below zero; and then nothing is
    within it. -/
theorem isParallel_of_isStraight (first : a.IsStraight axis) (second : b.IsStraight axis)
    (within : a.offset b axis ≤ tolerance) : a.IsParallel b tolerance := by
  refine ⟨first.isDegenerate, second.isDegenerate, fun below => not_lt_of_le within ?_⟩
  -- the determinant of the directions is zero, and no distance is below that
  obtain ⟨vanishes, zero⟩ := value_mul_of_zero (axis.isFinite_along first.isFinite_direction)
    (axis.isFinite_across second.isFinite_direction) (.inr second.value_across)
  rw [Axis.abs_determinant_eq first.isFinite_direction second.isFinite_direction
    first.value_across vanishes] at below
  obtain ⟨finite, none⟩ := value_abs vanishes
  have product := first.isFinite_product second.range.start
  rw [Axis.across_sub] at product
  obtain ⟨finite', size⟩ := value_abs product
  have number := (isNaN_of_le within).2
  rw [lt_iff_rank number (isNaN_of_isFinite finite), rank_of_isFinite finite, none, zero,
    abs_zero] at below
  rw [offset, lt_iff_rank number (isNaN_of_isFinite finite'), rank_of_isFinite finite', size]
  refine below.trans_le ?_
  exact_mod_cast abs_nonneg _

/-- The order of two paths along the same axis makes a difference if they run beside each other and
    the product of their distance with the length of one of them is within the tolerance, and that
    with the length of the other is not. -/
theorem crosses_swap_iff_of_isStraight (first : a.IsStraight axis) (second : b.IsStraight axis)
    (settled : a.shared b axis ≤ 0 ∨ 1 ≤ a.shared b axis) :
    a.crosses b tolerance = b.crosses a tolerance ↔
      (1 ≤ a.shared b axis → (a.offset b axis ≤ tolerance ↔ b.offset a axis ≤ tolerance)) := by
  have settled' : b.shared a axis ≤ 0 ∨ 1 ≤ b.shared a axis := by
    rwa [shared_comm]
  by_cases parallel : a.IsParallel b tolerance
  case pos =>
    rw [crosses_of_isParallel parallel, crosses_of_isParallel parallel.swap, Bool.eq_iff_iff,
      runsAlong_iff_of_isStraight first second settled,
      runsAlong_iff_of_isStraight second first settled', shared_comm b a, and_congr_left_iff]
  case neg =>
    refine iff_of_true (crosses_swap_of_not_isParallel parallel) fun _ => iff_of_false ?_ ?_
    · exact mt (isParallel_of_isStraight first second) parallel
    · exact fun within => parallel (isParallel_of_isStraight second first within).swap

example :
    let step : Segment := ⟨⟨0, 0⟩, ⟨1, 0⟩⟩
    let walk : Segment := ⟨⟨0, 0.00005⟩, ⟨100, 0.00005⟩⟩
    step.IsStraight .x ∧ walk.IsStraight .x ∧ 1 ≤ step.shared walk .x ∧
      step.offset walk .x ≤ defaultTolerance ∧ ¬ walk.offset step .x ≤ defaultTolerance := by
  decide +kernel

end Segment

end Troupe.Geometry
