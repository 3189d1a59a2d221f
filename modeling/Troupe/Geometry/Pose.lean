import Troupe.Geometry.Point
import Troupe.Number.Trigonometry

/-! # Bounds and poses

* `Bounds` — the rectangle that positions are kept in, and `Bounds.clamp`.
* `Pose` — a position with a heading in degrees, and where a walk along it ends.
-/

namespace Troupe.Geometry

open Troupe.Number (Trigonometry larger radians wrapDegrees)

/-! ## Bounds -/

/-- The rectangle of allowed positions, from the origin to `max`. -/
structure Bounds where
  max : Point
deriving Repr, Inhabited

namespace Bounds

/-- The bounds of a stage for square sprites that are placed by their top-left corner. A
    stage smaller than the sprite leaves only the origin on that axis. -/
def ofStage (width height size : Float32) : Bounds :=
  ⟨⟨larger (width - size) 0, larger (height - size) 0⟩⟩

/-- A position moved into the rectangle. A negative or `NaN` limit counts as zero, so
    the limits are always in order. -/
def clamp (bounds : Bounds) (p : Point) : Point :=
  ⟨Number.clamp 0 (larger bounds.max.x 0) p.x, Number.clamp 0 (larger bounds.max.y 0) p.y⟩

/-- Whether a position lies in the rectangle, its edges included. -/
def contains (bounds : Bounds) (p : Point) : Bool :=
  0 ≤ p.x && 0 ≤ p.y && p.x ≤ bounds.max.x && p.y ≤ bounds.max.y

end Bounds

/-! ## Poses -/

/-- Position and heading of a sprite. The heading is in degrees and is never wrapped. -/
structure Pose where
  position : Point
  rotation : Float32
deriving Repr, Inhabited

namespace Pose

/-- The pose at the origin, heading along the first axis. -/
def rest : Pose := ⟨.origin, 0⟩

/-- Poses are equal when position and heading compare equal. -/
instance : BEq Pose where
  beq p q := p.position == q.position && p.rotation == q.rotation

/-- The displacement of length one along the heading; zero degrees point along the
    first axis. -/
def heading [Trigonometry] (pose : Pose) : Point :=
  let angle := radians pose.rotation
  ⟨Trigonometry.cosine angle, Trigonometry.sine angle⟩

/-- Where a walk of `steps` along the heading ends, kept inside the bounds. -/
def advanced [Trigonometry] (pose : Pose) (steps : Float32) (bounds : Bounds) : Point :=
  bounds.clamp (pose.position + pose.heading.scale steps)

def displayRotation (pose : Pose) : Float32 :=
  wrapDegrees pose.rotation

def movedTo (pose : Pose) (position : Point) : Pose :=
  { pose with position }

def turnedTo (pose : Pose) (rotation : Float32) : Pose :=
  { pose with rotation }

end Pose

end Troupe.Geometry
