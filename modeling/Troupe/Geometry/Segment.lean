import Troupe.Geometry.Point

/-! # Segments

Straight paths and whether two of them cross.

* `Segment.crosses` — the test, with `crossesAt` for paths in different directions and
  `overlapsAlong` for parallel ones.
-/

namespace Troupe.Geometry

open Troupe.Number (larger smaller)

structure Segment where
  start : Point
  finish : Point
deriving Repr, Inhabited

/-- Determinants up to this magnitude count as zero: the paths are parallel. -/
def defaultTolerance : Float32 := 1e-4

namespace Segment

def direction (s : Segment) : Point :=
  s.finish - s.start

def isDegenerate (s : Segment) : Bool :=
  s.direction == Point.origin

def inUnitInterval (t : Float32) : Bool :=
  0 ≤ t && t ≤ 1

/-- The test for paths that are not parallel: where the two lines meet, as fractions of
    either path, must lie on both paths. -/
def crossesAt (a b : Segment) : Bool :=
  let determinant := a.direction.determinant b.direction
  let offset := b.start - a.start
  inUnitInterval (offset.determinant b.direction / determinant)
    && inUnitInterval (offset.determinant a.direction / determinant)

/-- Whether both ends of `b` lie on the line through `a`. -/
def isCollinear (a b : Segment) (tolerance : Float32) : Bool :=
  (a.direction.determinant (b.start - a.start)).abs ≤ tolerance
    && (a.direction.determinant (b.finish - a.start)).abs ≤ tolerance

/-- Whether the projections of two paths on the direction of the first have more than a
    single point in common. -/
def overlapsAlong (a b : Segment) : Bool :=
  let axis := a.direction.normalize
  let aStart := a.start.dot axis
  let aFinish := a.finish.dot axis
  let bStart := b.start.dot axis
  let bFinish := b.finish.dot axis
  smaller bStart bFinish < larger aStart aFinish
    && smaller aStart aFinish < larger bStart bFinish

/-- Whether two paths share a point. A path that goes nowhere crosses nothing; parallel
    paths cross only when they are collinear and overlap. -/
def crosses (a b : Segment) (tolerance : Float32) : Bool :=
  if a.isDegenerate || b.isDegenerate then false
  else if tolerance < (a.direction.determinant b.direction).abs then a.crossesAt b
  else a.isCollinear b tolerance && a.overlapsAlong b

end Segment

end Troupe.Geometry
