import Troupe.Number.Conversion

/-! # Points

Points of the stage in pixels, in single precision. The same pairs serve as
displacements. Every operation rounds each of its steps, so the order of the steps below
is part of the result.
-/

namespace Troupe.Geometry

/-- A point of the stage, or a displacement between two of them. -/
structure Point where
  x : Float32
  y : Float32
deriving Repr, Inhabited

namespace Point

/-- The corner of the stage that positions are measured from. -/
def origin : Point := ⟨0, 0⟩

/-- Points are equal when their coordinates compare equal: zeros of either sign are
    equal and `NaN` equals nothing. -/
instance : BEq Point where
  beq p q := p.x == q.x && p.y == q.y

instance : Add Point where
  add p q := ⟨p.x + q.x, p.y + q.y⟩

instance : Sub Point where
  sub p q := ⟨p.x - q.x, p.y - q.y⟩

def scale (p : Point) (factor : Float32) : Point :=
  ⟨p.x * factor, p.y * factor⟩

def dot (p q : Point) : Float32 :=
  p.x * q.x + p.y * q.y

/-- The determinant of two displacements; zero when they are parallel. -/
def determinant (p q : Point) : Float32 :=
  p.x * q.y - p.y * q.x

def normalize (p : Point) : Point :=
  p.scale (1 / (p.dot p).sqrt)

def distanceSquared (p q : Point) : Float32 :=
  (p - q).dot (p - q)

/-- The point that divides the way from `p` to `q` in the given fraction, as a weighted
    sum. -/
def between (p q : Point) (fraction : Float32) : Point :=
  p.scale (1 - fraction) + q.scale fraction

end Point

end Troupe.Geometry
