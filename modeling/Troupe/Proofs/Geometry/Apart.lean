import Mathlib
import Troupe.Proofs.Geometry.Displacement

/-! # Paths that are apart do not cross

The test for crossing paths compares rounded determinants with each other and with a tolerance. It
tells paths that are a pixel apart from paths that meet as long as rounding has no part in its
decisions: paths in different directions need a determinant that stands out against the lengths it
is made of, and parallel ones need a first path that is longer than twice the tolerance. On a stage
of some ten thousand pixels nothing else is needed.

* `Segment.IsApart` — whether the boxes around two paths are a pixel or more apart.
* `Segment.IsClear` — whether rounding has no part in the test.
* `not_isApart_of_crossesAt` — paths in different directions.
* `not_isApart_of_runsAlong` — parallel paths.
* `not_isApart_of_crosses` — the test as a whole.
-/

namespace Troupe.Geometry

open Troupe.Number

/-- Whether the coordinates of a point are finite and neither is above `2 ^ 16`. -/
structure Point.IsInRange (p : Point) : Prop where
  finite : p.IsFinite
  x : |value p.x| ≤ 2 ^ 16
  y : |value p.y| ≤ 2 ^ 16

instance (p : Point) : Decidable p.IsInRange :=
  decidable_of_iff (p.IsFinite ∧ |value p.x| ≤ 2 ^ 16 ∧ |value p.y| ≤ 2 ^ 16)
    ⟨fun ⟨finite, x, y⟩ => ⟨finite, x, y⟩, fun ⟨finite, x, y⟩ => ⟨finite, x, y⟩⟩

theorem Point.IsInRange.reach_wayTo {p q : Point} (rangeP : p.IsInRange) (rangeQ : q.IsInRange) :
    (p.wayTo q).reach ≤ 2 ^ 17 := by
  refine Displacement.reach_le_iff.mpr ⟨(abs_sub _ _).trans ?_, (abs_sub _ _).trans ?_⟩
  · linarith [rangeP.x, rangeQ.x]
  · linarith [rangeP.y, rangeQ.y]

theorem Point.IsInRange.isWithin_sub {p q : Point} (rangeP : p.IsInRange) (rangeQ : q.IsInRange) :
    (q - p).IsWithin (p.wayTo q) (1 / 2 ^ 24) (p.wayTo q).reach :=
  Geometry.isWithin_sub rangeP.finite rangeQ.finite
    ((rangeP.reach_wayTo rangeQ).trans (by norm_num))

namespace Segment

def way (s : Segment) : Displacement :=
  s.start.wayTo s.finish

/-- The lower end of a path along one of the axes. -/
def least (s : Segment) (axis : Point → Float32) : ℚ :=
  min (value (axis s.start)) (value (axis s.finish))

/-- The upper end of a path along one of the axes. -/
def greatest (s : Segment) (axis : Point → Float32) : ℚ :=
  max (value (axis s.start)) (value (axis s.finish))

/-- Whether the boxes around two paths are a unit or more apart along one of the axes. -/
def IsApart (a b : Segment) : Prop :=
  ∃ axis ∈ [Point.x, Point.y],
    a.greatest axis + 1 ≤ b.least axis ∨ b.greatest axis + 1 ≤ a.least axis

instance (a b : Segment) : Decidable (a.IsApart b) :=
  inferInstanceAs (Decidable (∃ axis ∈ [Point.x, Point.y], _))

/-- Whether no coordinate of a path is above `2 ^ 16`. -/
structure IsInRange (s : Segment) : Prop where
  start : s.start.IsInRange
  finish : s.finish.IsInRange

instance (s : Segment) : Decidable s.IsInRange :=
  decidable_of_iff (s.start.IsInRange ∧ s.finish.IsInRange)
    ⟨fun ⟨start, finish⟩ => ⟨start, finish⟩, fun ⟨start, finish⟩ => ⟨start, finish⟩⟩

variable {a b : Segment}

/-! ## Fractions of a path -/

/-- A point a little beyond either end of a path at most. -/
theorem between_ends (first last : ℚ) {fraction slack : ℚ} (lower : -slack ≤ fraction)
    (upper : fraction ≤ 1 + slack) :
    min first last - slack * |last - first| ≤ first + fraction * (last - first) ∧
      first + fraction * (last - first) ≤ max first last + slack * |last - first| := by
  rcases le_total first last with up | down
  · rw [min_eq_left up, max_eq_right up, abs_of_nonneg (by linarith)]
    constructor <;> nlinarith
  · rw [min_eq_right down, max_eq_left down, abs_of_nonpos (by linarith)]
    constructor <;> nlinarith

/-- A quotient that is rounded into the unit interval is hardly outside. -/
theorem fraction_bounds {t : Float32} {exact : ℚ}
    (near : Near t exact (|exact| / 2 ^ 24 + 1 / 2 ^ 150))
    (inside : inUnitInterval t = true) : -(1 / 2 ^ 22) ≤ exact ∧ exact ≤ 1 + 1 / 2 ^ 22 := by
  obtain ⟨finite, close⟩ := near
  simp only [inUnitInterval, Bool.and_eq_true, decide_eq_true_eq] at inside
  rw [le_iff_value (by decide) finite, le_iff_value finite (by decide), value_one] at inside
  have zero : value 0 = 0 := rfl
  rw [zero] at inside
  obtain ⟨low, high⟩ := inside
  obtain ⟨lower, upper⟩ := abs_le.mp close
  rcases le_total 0 exact with nonneg | nonpos
  · rw [abs_of_nonneg nonneg] at lower upper
    constructor <;> linarith
  · rw [abs_of_nonpos nonpos] at lower upper
    constructor <;> linarith

/-- Where the lines of two paths meet, as far as the fractions of the paths tell. The exact ones
    would make up for the displacement between the paths. -/
theorem meeting_error {r s q : Displacement} {d z w errorD errorZ errorW : ℚ}
    (nearD : |d - r.cross s| ≤ errorD) (nearZ : |z * d - q.cross s| ≤ errorZ)
    (nearW : |w * d - q.cross r| ≤ errorW) :
    |d * (q.x + w * s.x - z * r.x)| ≤ errorD * |q.x| + errorW * |s.x| + errorZ * |r.x| ∧
      |d * (q.y + w * s.y - z * r.y)| ≤ errorD * |q.y| + errorW * |s.y| + errorZ * |r.y| := by
  have weighted (i j k : ℚ) :
      |(d - r.cross s) * i + (w * d - q.cross r) * j - (z * d - q.cross s) * k| ≤
        errorD * |i| + errorW * |j| + errorZ * |k| := by
    calc |(d - r.cross s) * i + (w * d - q.cross r) * j - (z * d - q.cross s) * k|
        ≤ |(d - r.cross s) * i| + |(w * d - q.cross r) * j| + |(z * d - q.cross s) * k| := by
          have first := abs_sub ((d - r.cross s) * i + (w * d - q.cross r) * j)
            ((z * d - q.cross s) * k)
          have second := abs_add_le ((d - r.cross s) * i) ((w * d - q.cross r) * j)
          linarith
      _ ≤ errorD * |i| + errorW * |j| + errorZ * |k| := by
          rw [abs_mul, abs_mul, abs_mul]
          gcongr
  constructor
  · refine le_of_eq_of_le (congrArg _ ?_) (weighted q.x s.x r.x)
    simp only [Displacement.cross]
    ring
  · refine le_of_eq_of_le (congrArg _ ?_) (weighted q.y s.y r.y)
    simp only [Displacement.cross]
    ring

/-- A determinant that stands out against what rounding makes of it and of the two others leaves the
    points that the fractions lead to less than a unit apart. -/
theorem meeting_close {d q s r z w reachQ reachS reachR : ℚ} (some : 1 / 2 ^ 14 ≤ |d|)
    (leQ : |q| ≤ reachQ) (leS : |s| ≤ reachS) (leR : |r| ≤ reachR) (rangeQ : reachQ ≤ 2 ^ 17)
    (rangeS : reachS ≤ 2 ^ 17) (rangeR : reachR ≤ 2 ^ 17)
    (clear : reachR * reachS * reachQ < 2 ^ 19 * |d|)
    (error : |d * (q + w * s - z * r)| ≤ (9 / 2 ^ 24 * (reachR * reachS) + 3 / 2 ^ 150) * |q| +
      (9 / 2 ^ 24 * (reachQ * reachR) + 3 / 2 ^ 150) * |s| +
      (9 / 2 ^ 24 * (reachQ * reachS) + 3 / 2 ^ 150) * |r|) :
    |q + w * s - z * r| ≤ 7 / 8 := by
  have nonnegQ := (abs_nonneg q).trans leQ
  have nonnegS := (abs_nonneg s).trans leS
  have nonnegR := (abs_nonneg r).trans leR
  have share : |d| * |q + w * s - z * r| ≤ |d| * (7 / 8) :=
    calc |d| * |q + w * s - z * r| = |d * (q + w * s - z * r)| := (abs_mul _ _).symm
      _ ≤ (9 / 2 ^ 24 * (reachR * reachS) + 3 / 2 ^ 150) * reachQ +
            (9 / 2 ^ 24 * (reachQ * reachR) + 3 / 2 ^ 150) * reachS +
            (9 / 2 ^ 24 * (reachQ * reachS) + 3 / 2 ^ 150) * reachR := error.trans (by gcongr)
      _ = 27 / 2 ^ 24 * (reachR * reachS * reachQ) +
            3 / 2 ^ 150 * (reachQ + reachS + reachR) := by ring
      _ ≤ |d| * (7 / 8) := by linarith
  exact le_of_mul_le_mul_left share (lt_of_lt_of_le (by norm_num) some)

/-- Two points, each hardly beyond its path, are apart if the paths are. -/
theorem lt_of_gap {first last first' last' z w slack bound : ℚ} (lowerZ : -slack ≤ z)
    (upperZ : z ≤ 1 + slack) (lowerW : -slack ≤ w) (upperW : w ≤ 1 + slack)
    (short : slack * (|last - first| + |last' - first'|) < 1 - bound)
    (gap : max first last + 1 ≤ min first' last' ∨ max first' last' + 1 ≤ min first last) :
    bound < |first' - first + w * (last' - first') - z * (last - first)| := by
  obtain ⟨least, most⟩ := between_ends first last lowerZ upperZ
  obtain ⟨least', most'⟩ := between_ends first' last' lowerW upperW
  rcases gap with above | below
  · refine lt_of_lt_of_le ?_ (le_abs_self _)
    linarith
  · refine lt_of_lt_of_le ?_ (neg_le_abs _)
    linarith

/-! ## Different directions -/

/-- The computed fraction of a path, by the determinants that it is a quotient of. -/
theorem exists_fraction {p q : Point} {d e : Displacement} {determinant : Float32}
    (withinP : p.IsWithin d (1 / 2 ^ 24) d.reach) (withinQ : q.IsWithin e (1 / 2 ^ 24) e.reach)
    (reachP : d.reach ≤ 2 ^ 17) (reachQ : e.reach ≤ 2 ^ 17) (finite : determinant.isFinite = true)
    (some : 1 / 2 ^ 14 ≤ |value determinant|)
    (inside : inUnitInterval (p.determinant q / determinant) = true) :
    ∃ fraction, -(1 / 2 ^ 22) ≤ fraction ∧ fraction ≤ 1 + 1 / 2 ^ 22 ∧
      |fraction * value determinant - d.cross e| ≤
        9 / 2 ^ 24 * (d.reach * e.reach) + 3 / 2 ^ 150 := by
  have near := near_determinant withinP withinQ (by norm_num)
  have positive : 0 < |value determinant| := by linarith
  have area : d.reach * e.reach ≤ 2 ^ 17 * 2 ^ 17 := by
    have nonneg := e.reach_nonneg
    gcongr
  have size : |value (p.determinant q)| ≤ 2 ^ 36 := by
    have cross := abs_cross_le (d := d) (e := e) le_rfl le_rfl
    have triangle := abs_sub_abs_le_abs_sub (value (p.determinant q)) (d.cross e)
    linarith [near.close]
  have quotient := near_div near.finite finite (abs_pos.mp positive) (by
    rw [abs_div, div_le_iff₀ positive]
    linarith)
  obtain ⟨lower, upper⟩ := fraction_bounds quotient inside
  refine ⟨_, lower, upper, ?_⟩
  rw [div_mul_cancel₀ _ (abs_pos.mp positive)]
  exact near.close

theorem not_isApart_of_crossesAt (first : a.IsInRange) (second : b.IsInRange)
    (some : 1 / 2 ^ 14 ≤ |value (a.direction.determinant b.direction)|)
    (clear : a.way.reach * b.way.reach * (a.start.wayTo b.start).reach <
      2 ^ 19 * |value (a.direction.determinant b.direction)|)
    (crosses : a.crossesAt b = true) : ¬ a.IsApart b := by
  have alongA := first.start.isWithin_sub first.finish
  have alongB := second.start.isWithin_sub second.finish
  have between := first.start.isWithin_sub second.start
  have reachA := first.start.reach_wayTo first.finish
  have reachB := second.start.reach_wayTo second.finish
  have reachQ := first.start.reach_wayTo second.start
  have nearD := near_determinant alongA alongB (by norm_num)
  simp only [crossesAt, Bool.and_eq_true] at crosses
  obtain ⟨z, lowerZ, upperZ, nearZ⟩ :=
    exists_fraction between alongB reachQ reachB nearD.finite some crosses.1
  obtain ⟨w, lowerW, upperW, nearW⟩ :=
    exists_fraction between alongA reachQ reachA nearD.finite some crosses.2
  -- Each of the two fractions leads to a place on its path, and the places nearly coincide.
  obtain ⟨errorX, errorY⟩ := meeting_error nearD.close nearZ nearW
  obtain ⟨leQx, leQy⟩ := Displacement.reach_le_iff.mp (le_refl (a.start.wayTo b.start).reach)
  obtain ⟨leSx, leSy⟩ := Displacement.reach_le_iff.mp (le_refl b.way.reach)
  obtain ⟨leRx, leRy⟩ := Displacement.reach_le_iff.mp (le_refl a.way.reach)
  rintro ⟨axis, listed, gap⟩
  have short {r s : ℚ} (leR : |r| ≤ a.way.reach) (leS : |s| ≤ b.way.reach) :
      1 / 2 ^ 22 * (|r| + |s|) < 1 - 7 / 8 := by
    change a.way.reach ≤ _ at reachA
    change b.way.reach ≤ _ at reachB
    linarith
  simp only [List.mem_cons, List.not_mem_nil, or_false] at listed
  rcases listed with rfl | rfl
  · exact absurd (meeting_close some leQx leSx leRx reachQ reachB reachA clear errorX)
      (not_le.mpr (lt_of_gap lowerZ upperZ lowerW upperW (short leRx leSx) gap))
  · exact absurd (meeting_close some leQy leSy leRy reachQ reachB reachA clear errorY)
      (not_le.mpr (lt_of_gap lowerZ upperZ lowerW upperW (short leRy leSy) gap))

/-! ## Parallel paths -/

/-- A displacement hardly off the line of another, and a unit or more along the x axis, leads a good
    way along the line, in the direction that the line has itself along the axis. -/
theorem le_dot_of_far {r : Displacement} (positive : 0 < r.reach) :
    ∃ sense : ℚ, (sense = 1 ∨ sense = -1) ∧
      ∀ d : Displacement, |r.cross d| ≤ 3 / 5 * r.reach → 1 ≤ d.x →
        2 / 5 * r.reach ≤ sense * r.dot d := by
  obtain ⟨leX, leY⟩ := Displacement.reach_le_iff.mp (le_refl r.reach)
  have square := r.sq_reach_le
  have along (d : Displacement) (near : |r.cross d| ≤ 3 / 5 * r.reach) (far : 1 ≤ d.x) :
      2 / 5 * r.reach * r.reach ≤ r.dot d * r.x := by
    -- the way along the line and the way off it, both as they show along the x axis
    have split : r.dot d * r.x = r.dot r * d.x + r.cross d * r.y := by
      simp only [Displacement.dot, Displacement.cross]
      ring
    have length : r.dot r ≤ r.dot r * d.x :=
      le_mul_of_one_le_right ((sq_nonneg _).trans square) far
    have off : |r.cross d * r.y| ≤ 3 / 5 * r.reach * r.reach := by
      rw [abs_mul]
      gcongr
    have low := (abs_le.mp off).1
    rw [split]
    linarith [pow_two r.reach]
  obtain ⟨sense, unit, turned⟩ : ∃ sense : ℚ, (sense = 1 ∨ sense = -1) ∧ r.x = sense * |r.x| := by
    rcases le_total 0 r.x with nonneg | nonpos
    · exact ⟨1, .inl rfl, by rw [abs_of_nonneg nonneg, one_mul]⟩
    · exact ⟨-1, .inr rfl, by rw [abs_of_nonpos nonpos, neg_one_mul, neg_neg]⟩
  refine ⟨sense, unit, fun d near far => ?_⟩
  have good := along d near far
  rw [turned, ← mul_assoc, mul_comm (r.dot d)] at good
  have forward : 0 ≤ sense * r.dot d := by
    by_contra back
    have product := mul_nonpos_of_nonpos_of_nonneg (not_le.mp back).le (abs_nonneg r.x)
    have area := mul_pos positive positive
    linarith
  exact le_of_mul_le_mul_right (good.trans (mul_le_mul_of_nonneg_left leX forward)) positive

/-- The same for either direction along either axis. -/
theorem exists_sense {r : Displacement} (positive : 0 < r.reach) :
    ∀ coordinate ∈ [Displacement.x, Displacement.y], ∀ side : ℚ, side = 1 ∨ side = -1 →
      ∃ sense : ℚ, (sense = 1 ∨ sense = -1) ∧
        ∀ d : Displacement, |r.cross d| ≤ 3 / 5 * r.reach → 1 ≤ side * coordinate d →
          2 / 5 * r.reach ≤ sense * r.dot d := by
  -- The axes are exchanged, and the displacement turned around.
  have axes (coordinate) (listed : coordinate ∈ [Displacement.x, Displacement.y]) :
      ∃ sense : ℚ, (sense = 1 ∨ sense = -1) ∧
        ∀ d : Displacement, |r.cross d| ≤ 3 / 5 * r.reach → 1 ≤ coordinate d →
          2 / 5 * r.reach ≤ sense * r.dot d := by
    simp only [List.mem_cons, List.not_mem_nil, or_false] at listed
    rcases listed with rfl | rfl
    · exact le_dot_of_far positive
    · have reach : (⟨r.y, r.x⟩ : Displacement).reach = r.reach := max_comm _ _
      obtain ⟨sense, unit, good⟩ := le_dot_of_far (r := ⟨r.y, r.x⟩) (reach ▸ positive)
      refine ⟨sense, unit, fun d near far => ?_⟩
      have turned : (⟨r.y, r.x⟩ : Displacement).cross ⟨d.y, d.x⟩ = -r.cross d := by
        simp only [Displacement.cross]
        ring
      have same : (⟨r.y, r.x⟩ : Displacement).dot ⟨d.y, d.x⟩ = r.dot d := by
        simp only [Displacement.dot]
        ring
      have result := good ⟨d.y, d.x⟩ (by rwa [turned, abs_neg, reach]) far
      rwa [same, reach] at result
  intro coordinate listed side unit
  obtain ⟨sense, isSense, good⟩ := axes coordinate listed
  refine ⟨side * sense, ?_, fun d near far => ?_⟩
  · rcases unit with rfl | rfl <;> rcases isSense with rfl | rfl <;> norm_num
  · have same : |side| = 1 := by rcases unit with rfl | rfl <;> norm_num
    have turned : coordinate (d.scale side) = side * coordinate d := by
      simp only [List.mem_cons, List.not_mem_nil, or_false] at listed
      rcases listed with rfl | rfl <;> rfl
    have result := good (d.scale side)
      (by rwa [Displacement.cross_scale, abs_mul, same, one_mul]) (by rwa [turned])
    rw [Displacement.dot_scale] at result
    linarith

def ends (s : Segment) : List Point :=
  [s.start, s.finish]

theorem IsInRange.of_mem_ends {s : Segment} (inRange : s.IsInRange) {p : Point}
    (member : p ∈ s.ends) : p.IsInRange := by
  simp only [ends, List.mem_cons, List.not_mem_nil, or_false] at member
  rcases member with rfl | rfl
  · exact inRange.start
  · exact inRange.finish

theorem value_defaultTolerance : value defaultTolerance = 13743895 / 2 ^ 37 := by
  have fields : fields32 defaultTolerance = .finite .positive 13743895 (-37) (by decide) := rfl
  rw [value, fields, valueOf_positive]
  norm_num

/-- The ends of a path that is taken for a part of the line of another are not far off the line. -/
theorem abs_cross_le_of_isCollinear (first : a.IsInRange) (second : b.IsInRange)
    (long : 2 * value defaultTolerance ≤ a.way.reach)
    (collinear : a.isCollinear b defaultTolerance = true) :
    ∀ p ∈ a.ends, ∀ q ∈ b.ends, |a.way.cross (p.wayTo q)| ≤ 3 / 5 * a.way.reach := by
  have along := first.start.isWithin_sub first.finish
  have measured {q : Point} (inRange : q.IsInRange)
      (small : (a.direction.determinant (q - a.start)).abs ≤ defaultTolerance) :
      |a.way.cross (a.start.wayTo q)| ≤ 3 / 5 * a.way.reach := by
    have near := near_determinant along (first.start.isWithin_sub inRange) (by norm_num)
    have reach := first.start.reach_wayTo inRange
    obtain ⟨finite, same⟩ := value_abs near.finite
    change ((a.finish - a.start).determinant (q - a.start)).abs ≤ defaultTolerance at small
    rw [le_iff_value finite (by decide), same] at small
    have area : a.way.reach * (a.start.wayTo q).reach ≤ a.way.reach * 2 ^ 17 :=
      mul_le_mul_of_nonneg_left reach a.way.reach_nonneg
    have close := near.close
    have triangle := abs_sub_abs_le_abs_sub (a.way.cross (a.start.wayTo q))
      (value ((a.finish - a.start).determinant (q - a.start)))
    rw [abs_sub_comm] at triangle
    change |_ - a.way.cross _| ≤ 9 / 2 ^ 24 * (a.way.reach * _) + _ at close
    rw [value_defaultTolerance] at small long
    linarith
  -- Seen from its other end the path has the same line.
  have fromFinish (q : Point) : a.way.cross (a.finish.wayTo q) = a.way.cross (a.start.wayTo q) := by
    simp only [way, Point.wayTo, Displacement.cross]
    ring
  simp only [isCollinear, Bool.and_eq_true, decide_eq_true_eq] at collinear
  have both : ∀ q ∈ b.ends, |a.way.cross (a.start.wayTo q)| ≤ 3 / 5 * a.way.reach := by
    simp only [ends, List.forall_mem_cons]
    exact ⟨measured second.start collinear.1, measured second.finish collinear.2, by simp⟩
  simp only [ends, List.forall_mem_cons (a := a.start), List.forall_mem_singleton]
  exact ⟨both, fun q member => fromFinish q ▸ both q member⟩

/-- The projections of points on the direction of a path, up to a factor and rounding. -/
theorem exists_projection (first : a.IsInRange) (long : 1 / 2 ^ 13 ≤ a.way.reach) :
    ∃ scale : ℚ, 0 < scale ∧ ∀ p : Point, p.IsInRange →
      Near (p.dot a.direction.normalize) (scale * a.way.dot ⟨value p.x, value p.y⟩)
        (1 / 16 * (scale * a.way.reach)) := by
  have along := first.start.isWithin_sub first.finish
  obtain ⟨scale, positive, least, most, within⟩ := exists_isWithin_normalize along long
  refine ⟨scale, positive, fun p inRange => ?_⟩
  have own := isWithin_self inRange.finite inRange.x inRange.y (by norm_num)
  have near := near_dot own within (by norm_num)
  have same : (⟨value p.x, value p.y⟩ : Displacement).dot ((a.start.wayTo a.finish).scale scale) =
      scale * a.way.dot ⟨value p.x, value p.y⟩ := by
    rw [Displacement.dot_scale]
    simp only [Displacement.dot, way]
    ring
  rw [same] at near
  refine near.mono ?_
  change 1 / 7 ≤ scale * a.way.reach at least
  change 9 / 2 ^ 24 * (2 ^ 16 * (scale * a.way.reach)) + 3 / 2 ^ 150 ≤ _
  linarith

/-- Points that are far apart along a path have different projections. -/
theorem lt_of_near {x y : Float32} {exactX exactY scale reach : ℚ}
    (nearX : Near x (scale * exactX) (1 / 16 * (scale * reach)))
    (nearY : Near y (scale * exactY) (1 / 16 * (scale * reach))) (positive : 0 < scale * reach)
    (nonneg : 0 ≤ scale) (far : 2 / 5 * reach ≤ exactY - exactX) : x < y := by
  rw [lt_iff_value nearX.finite nearY.finite]
  have scaled := mul_le_mul_of_nonneg_left far nonneg
  linarith [(abs_le.mp nearX.close).2, (abs_le.mp nearY.close).1]

theorem smaller_eq (x y : Float32) : smaller x y = x ∨ smaller x y = y := by
  unfold smaller
  split
  · exact .inl rfl
  · exact ite_eq_or_eq _ _ _

theorem larger_eq (x y : Float32) : larger x y = x ∨ larger x y = y := by
  unfold larger
  split
  · exact .inl rfl
  · exact ite_eq_or_eq _ _ _

/-- Projections that are all on one side of the others have nothing in common with them. -/
theorem overlapsAlong_eq_false
    (apart : (∀ p ∈ a.ends, ∀ q ∈ b.ends,
        p.dot a.direction.normalize < q.dot a.direction.normalize) ∨
      ∀ p ∈ a.ends, ∀ q ∈ b.ends,
        q.dot a.direction.normalize < p.dot a.direction.normalize) :
    a.overlapsAlong b = false := by
  simp only [ends, List.forall_mem_cons, List.not_mem_nil, false_imp_iff, implies_true,
    and_true] at apart
  simp only [overlapsAlong, Bool.and_eq_false_iff, decide_eq_false_iff_not]
  rcases apart with ⟨⟨_, _⟩, _, _⟩ | ⟨⟨_, _⟩, _, _⟩
  · left
    rcases smaller_eq (b.start.dot a.direction.normalize) (b.finish.dot a.direction.normalize) with
      least | least <;>
    rcases larger_eq (a.start.dot a.direction.normalize) (a.finish.dot a.direction.normalize) with
      most | most <;>
    rw [least, most] <;> exact lt_asymm ‹_›
  · right
    rcases smaller_eq (a.start.dot a.direction.normalize) (a.finish.dot a.direction.normalize) with
      least | least <;>
    rcases larger_eq (b.start.dot a.direction.normalize) (b.finish.dot a.direction.normalize) with
      most | most <;>
    rw [least, most] <;> exact lt_asymm ‹_›

theorem IsApart.swap (apart : a.IsApart b) : b.IsApart a := by
  obtain ⟨axis, listed, gap⟩ := apart
  exact ⟨axis, listed, gap.symm⟩

theorem value_bounds (axis : Point → Float32) {s : Segment} {p : Point} (member : p ∈ s.ends) :
    s.least axis ≤ value (axis p) ∧ value (axis p) ≤ s.greatest axis := by
  simp only [ends, List.mem_cons, List.not_mem_nil, or_false] at member
  rcases member with rfl | rfl
  · exact ⟨min_le_left _ _, le_max_left _ _⟩
  · exact ⟨min_le_right _ _, le_max_right _ _⟩

/-- A gap between the boxes of two paths is one between any two of their ends. -/
theorem IsApart.exists_side (apart : a.IsApart b) :
    ∃ coordinate ∈ [Displacement.x, Displacement.y], ∃ side : ℚ, (side = 1 ∨ side = -1) ∧
      ∀ p ∈ a.ends, ∀ q ∈ b.ends, 1 ≤ side * coordinate (p.wayTo q) := by
  obtain ⟨axis, listed, gap⟩ := apart
  have sided : ∃ side : ℚ, (side = 1 ∨ side = -1) ∧
      ∀ p ∈ a.ends, ∀ q ∈ b.ends, 1 ≤ side * (value (axis q) - value (axis p)) := by
    rcases gap with above | below
    · refine ⟨1, .inl rfl, fun p memberP q memberQ => ?_⟩
      linarith [(value_bounds axis memberP).2, (value_bounds axis memberQ).1]
    · refine ⟨-1, .inr rfl, fun p memberP q memberQ => ?_⟩
      linarith [(value_bounds axis memberP).1, (value_bounds axis memberQ).2]
  simp only [List.mem_cons, List.not_mem_nil, or_false] at listed
  rcases listed with rfl | rfl
  · exact ⟨Displacement.x, by simp, sided⟩
  · exact ⟨Displacement.y, by simp, sided⟩

theorem not_isApart_of_runsAlong (first : a.IsInRange) (second : b.IsInRange)
    (long : 2 * value defaultTolerance ≤ a.way.reach)
    (collinear : a.isCollinear b defaultTolerance = true) (overlaps : a.overlapsAlong b = true) :
    ¬ a.IsApart b := by
  intro apart
  have longer : 1 / 2 ^ 13 ≤ a.way.reach := by
    rw [value_defaultTolerance] at long
    linarith
  have positive : 0 < a.way.reach := by linarith
  have near := abs_cross_le_of_isCollinear first second long collinear
  obtain ⟨scale, scales, projection⟩ := exists_projection first longer
  obtain ⟨coordinate, listed, side, unit, gap⟩ := apart.exists_side
  obtain ⟨sense, isSense, far⟩ := exists_sense positive coordinate listed side unit
  have between (p q : Point) : a.way.dot (p.wayTo q) =
      a.way.dot ⟨value q.x, value q.y⟩ - a.way.dot ⟨value p.x, value p.y⟩ := by
    simp only [Displacement.dot, Point.wayTo]
    ring
  have length := mul_pos scales positive
  refine absurd overlaps (Bool.eq_false_iff.mp (overlapsAlong_eq_false ?_))
  rcases isSense with rfl | rfl
  · refine .inl fun p memberP q memberQ => ?_
    have along := far _ (near p memberP q memberQ) (gap p memberP q memberQ)
    rw [one_mul, between] at along
    exact lt_of_near (projection p (first.of_mem_ends memberP))
      (projection q (second.of_mem_ends memberQ)) length scales.le along
  · refine .inr fun p memberP q memberQ => ?_
    have along := far _ (near p memberP q memberQ) (gap p memberP q memberQ)
    rw [neg_one_mul, between, neg_sub] at along
    exact lt_of_near (projection q (second.of_mem_ends memberQ))
      (projection p (first.of_mem_ends memberP)) length scales.le along

/-! ## The test as a whole -/

/-- Whether rounding has no part in the test of two paths: no coordinate is above `2 ^ 16`, the
    determinant of different directions stands out against the lengths it is made of, and a path
    that is compared to a parallel one is at least as long as twice the tolerance. -/
structure IsClear (a b : Segment) : Prop where
  first : a.IsInRange
  second : b.IsInRange
  different : defaultTolerance < (a.direction.determinant b.direction).abs →
    a.way.reach * b.way.reach * (a.start.wayTo b.start).reach <
      2 ^ 19 * |value (a.direction.determinant b.direction)|
  parallel : ¬ defaultTolerance < (a.direction.determinant b.direction).abs →
    2 * value defaultTolerance ≤ a.way.reach

instance (a b : Segment) : Decidable (a.IsClear b) :=
  decidable_of_iff (a.IsInRange ∧ b.IsInRange ∧
      (defaultTolerance < (a.direction.determinant b.direction).abs →
        a.way.reach * b.way.reach * (a.start.wayTo b.start).reach <
          2 ^ 19 * |value (a.direction.determinant b.direction)|) ∧
      (¬ defaultTolerance < (a.direction.determinant b.direction).abs →
        2 * value defaultTolerance ≤ a.way.reach))
    ⟨fun ⟨first, second, different, parallel⟩ => ⟨first, second, different, parallel⟩,
      fun ⟨first, second, different, parallel⟩ => ⟨first, second, different, parallel⟩⟩

theorem not_isApart_of_crosses (clear : a.IsClear b)
    (crosses : a.crosses b defaultTolerance = true) : ¬ a.IsApart b := by
  have alongA := clear.first.start.isWithin_sub clear.first.finish
  have alongB := clear.second.start.isWithin_sub clear.second.finish
  have determinant : Near (a.direction.determinant b.direction) _ _ :=
    near_determinant alongA alongB (by norm_num)
  unfold Segment.crosses at crosses
  split at crosses
  case isTrue => cases crosses
  case isFalse =>
    split at crosses
    case isTrue different =>
      have some := different
      obtain ⟨finite, same⟩ := value_abs determinant.finite
      rw [lt_iff_value (by decide) finite, value_defaultTolerance, same] at some
      exact not_isApart_of_crossesAt clear.first clear.second (by linarith)
        (clear.different different) crosses
    case isFalse parallel =>
      rw [Bool.and_eq_true] at crosses
      exact not_isApart_of_runsAlong clear.first clear.second (clear.parallel parallel) crosses.1
        crosses.2

end Segment

end Troupe.Geometry
