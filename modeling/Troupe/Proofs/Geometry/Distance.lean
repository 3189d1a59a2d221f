import Troupe.Proofs.Geometry.Sound
import Troupe.Proofs.Number.Opposite

/-! # Distances

The squared distance is the same from either end, down to its last bit, and it is a number whenever
both ends are finite: a difference may be too large, but its square is an infinity then, and a sum
of infinities with one sign is one of them.
-/

namespace Troupe.Geometry

open Troupe.Number

theorem Point.distanceSquared_swap (p q : Point) : p.distanceSquared q = q.distanceSquared p := by
  have alongX := mul_self_of_opposite (opposite_sub_swap p.x q.x)
  have alongY := mul_self_of_opposite (opposite_sub_swap p.y q.y)
  change (p.x - q.x) * (p.x - q.x) + (p.y - q.y) * (p.y - q.y) = _
  rw [alongX, alongY]
  rfl

theorem Point.signed_distanceSquared {p q : Point} (finite : p.IsFinite) (other : q.IsFinite) :
    Signed .positive (fields32 (p.distanceSquared q)) := by
  have alongX := signed_mul_self (isNaN_sub finite.1 other.1)
  have alongY := signed_mul_self (isNaN_sub finite.2 other.2)
  exact (alongX.add alongY).packed

theorem Point.isNaN_distanceSquared {p q : Point} (finite : p.IsFinite) (other : q.IsFinite) :
    (p.distanceSquared q).isNaN = false :=
  (Point.signed_distanceSquared finite other).isNaN_eq_false

end Troupe.Geometry
