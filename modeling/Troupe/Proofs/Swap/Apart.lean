import Troupe.Proofs.Geometry.Apart
import Troupe.Proofs.Swap.Crossing

/-! # Which paths are kept apart

Two actors whose paths are a pixel or more apart are not exchanged as long as rounding has no part
in the test of their paths. It has a part for two paths that run in nearly the same direction. The
determinant of their directions is what rounding leaves of the difference of two products, and if it
is above the tolerance, then the fractions of the paths are quotients of such remainders.

* `exchanged_paths_meet` — paths that are exchanged are not apart.
* `slopes_exchanged_apart` — two paths on a stage of ordinary size that are.
-/

namespace Troupe.Swap

open Troupe.Geometry (Segment Point defaultTolerance)

namespace Plan

/-- Two paths that cross by the test, and so any two that a plan exchanges, are not a pixel apart
    along either axis. -/
theorem exchanged_paths_meet {a b : Segment} (clear : a.IsClear b) :
    (a.crosses b defaultTolerance = true → ¬ a.IsApart b) ∧
      ∀ (paths : List Segment) (i j : Nat), paths[i]? = some a → paths[j]? = some b →
        (i, j) ∈ (ofPaths paths defaultTolerance).pairs → ¬ a.IsApart b := by
  refine ⟨Segment.not_isApart_of_crosses clear, fun paths i j atI atJ exchanged => ?_⟩
  obtain ⟨before, -⟩ := mem_ofPaths_iff.mp exchanged
  exact Segment.not_isApart_of_crosses clear ((mem_ofPaths_iff_crosses before atI atJ).mp exchanged)

/-- From the lower left corner of a square to the upper right one. -/
def rising : Segment := ⟨⟨0, 0⟩, ⟨100, 100⟩⟩

/-- From the lower right corner of the square to the upper left one. -/
def falling : Segment := ⟨⟨100, 0⟩, ⟨0, 100⟩⟩

theorem diagonals_exchanged_meet :
    rising.IsClear falling ∧ rising.crosses falling defaultTolerance = true ∧
      (0, 1) ∈ (ofPaths [rising, falling] defaultTolerance).pairs ∧ ¬ rising.IsApart falling :=
  have clear : rising.IsClear falling := by decide +kernel
  have exchanged : (0, 1) ∈ (ofPaths [rising, falling] defaultTolerance).pairs := by decide +kernel
  ⟨clear, by decide +kernel, exchanged,
    (exchanged_paths_meet clear).2 [rising, falling] 0 1 rfl rfl exchanged⟩

/-- Up a slope of two in five. -/
def lowerSlope : Segment := ⟨⟨56.8, 34⟩, ⟨112.3, 56.2⟩⟩

/-- Down a slope of two in five, a hundred pixels and more above the other. -/
def upperSlope : Segment := ⟨⟨700.8, 291.6⟩, ⟨380.3, 163.4⟩⟩

theorem slopes_exchanged_apart :
    lowerSlope.start.IsFinite ∧ lowerSlope.finish.IsFinite ∧
      upperSlope.start.IsFinite ∧ upperSlope.finish.IsFinite ∧
      lowerSlope.IsApart upperSlope ∧
      lowerSlope.crosses upperSlope defaultTolerance = true ∧
      (ofPaths [lowerSlope, upperSlope] defaultTolerance).pairs = [(0, 1)] := by
  decide +kernel

-- Nor does a first path that is shorter than the tolerance tell how far off a parallel one is.
example :
    let step : Segment := ⟨⟨0, 0⟩, ⟨0.00005, 0⟩⟩
    let walk : Segment := ⟨⟨0, 1.5⟩, ⟨1, 1.5⟩⟩
    step.IsApart walk ∧ step.crosses walk defaultTolerance = true := by
  decide +kernel

end Plan

end Troupe.Swap
