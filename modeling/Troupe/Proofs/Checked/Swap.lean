import Troupe.Proofs.Checked.Operation
import Troupe.Proofs.Swap.Grid
import Troupe.Swap.Encounter
import Troupe.Swap.Plan

/-! # Swaps without failures

A cell is folded into a bucket by a remainder, which needs a bucket. Positions and the items of a
plan are looked up by numbers that come from the list itself, or are compared to its length first.

* `near`, `rebuild`, `update` — looking for neighbours in a grid.
* `apply` — the exchanges of a plan.
-/

namespace Troupe.Checked

open Troupe.Geometry (Point)
open Troupe.Swap

/-! ## Grids -/

def bucketOf (grid : Grid) (cell : Cell) : Option Nat :=
  modulo cell.hash.toNat grid.buckets.size

def entriesAt (grid : Grid) (cell : Cell) : Option (List Nat) := do
  let bucket ← bucketOf grid cell
  return grid.buckets.getD bucket []

def insert (grid : Grid) (position : Point) (entry : Nat) : Option Grid := do
  let bucket ← bucketOf grid (grid.cellAt position)
  return { grid with buckets := grid.buckets.modify bucket (· ++ [entry]) }

def near (grid : Grid) (position : Point) : Option (List Nat) := do
  let found ← (grid.cellAt position).around.mapM (entriesAt grid)
  return found.flatten

def rebuild (grid : Grid) (positions : List Point) : Option Grid :=
  positions.zipIdx.foldlM (fun grid (position, i) => insert grid position i) grid.clear

section Grid

variable {grid : Grid} (stocked : 0 < grid.buckets.size)
include stocked

theorem bucketOf_eq (cell : Cell) : bucketOf grid cell = some (grid.bucketOf cell) :=
  if_pos stocked

theorem insert_eq (position : Point) (entry : Nat) :
    insert grid position entry = some (grid.insert position entry) := by
  rw [insert, bucketOf_eq stocked]
  rfl

theorem near_eq (position : Point) : near grid position = some (grid.near position) := by
  have entries : ∀ cell ∈ (grid.cellAt position).around,
      entriesAt grid cell = some (grid.entriesAt cell) := by
    intro cell _
    rw [entriesAt, bucketOf_eq stocked]
    rfl
  rw [near, mapM_eq_some_map entries]
  rfl

/-- Every grid that is built on the way has as many buckets as the first. -/
theorem rebuild_eq (positions : List Point) :
    rebuild grid positions = some (grid.rebuild positions) := by
  refine foldlM_eq_some_foldl (fun grid : Grid => 0 < grid.buckets.size) ?begins ?steps
  case begins => rwa [Grid.size_clear]
  case steps =>
    intro later ready item _
    exact ⟨insert_eq ready item.1 item.2, by rwa [Grid.size_insert]⟩

end Grid

/-! ## Encounters -/

variable (encounters : Encounters) (placed : List Placed)

def gridOf : Option Grid :=
  rebuild (Grid.empty (encounters.radius * 2) encounters.bucketCount) (placed.map (·.2))

def closeAmong (me : Placed) (i : Nat) (candidates : List Nat) :
    Option (List (ActorId × ActorId)) :=
  (candidates.mapM fun j =>
    if i < j && j < placed.length then do
      let other ← placed[j]?
      return if encounters.isClose me.2 other.2 then some (ActorId.orderedPair me.1 other.1)
        else none
    else some none).map (List.filterMap id)

def closePairs : Option (List (ActorId × ActorId)) := do
  let grid ← gridOf encounters placed
  let found ← placed.zipIdx.mapM fun (_, i) => do
    let me ← placed[i]?
    let candidates ← near grid me.2
    closeAmong encounters placed me i candidates
  return found.flatten

def update : Option (List (ActorId × ActorId) × Encounters) := do
  let remaining := encounters.dropParted placed
  let close ← closePairs remaining placed
  let begun := Encounters.unseen remaining.ongoing close
  return (begun, { remaining with ongoing := remaining.ongoing ++ begun })

theorem gridOf_eq : gridOf encounters placed = some (encounters.gridOf placed) :=
  rebuild_eq (Grid.size_empty _ _) _

theorem closeAmong_eq (me : Placed) (i : Nat) (candidates : List Nat) :
    closeAmong encounters placed me i candidates =
      some (encounters.closeAmong placed me i candidates) := by
  -- A candidate that is out of range is passed over, here by its number and there by the look-up.
  refine filterMap_mapM_eq_some fun j _ => ?_
  by_cases after : i < j <;> by_cases inRange : j < placed.length <;> simp [after, inRange]

theorem closePairs_eq : closePairs encounters placed = some (encounters.closePairs placed) := by
  have stocked : 0 < (encounters.gridOf placed).buckets.size := by
    rw [Encounters.gridOf, Grid.size_rebuild]
    exact Grid.size_empty _ _
  rw [closePairs, gridOf_eq, Option.bind_eq_bind, Option.bind_some,
    mapM_eq_some_map (g := fun item =>
      encounters.closeAmong placed item.1 item.2 ((encounters.gridOf placed).near item.1.2))
      ?answers]
  case answers =>
    rintro ⟨me, i⟩ numbered
    have found : placed[i]? = some me := List.mem_zipIdx_iff_getElem?.mp numbered
    simp only [found, Option.bind_eq_bind, Option.bind_some, near_eq stocked, closeAmong_eq]
  rfl

theorem update_eq : update encounters placed = some (encounters.update placed) := by
  simp only [update, closePairs_eq]
  rfl

/-! ## Plans -/

def apply {α : Type} (plan : Plan) (items : List α) : Option (List α) :=
  plan.pairs.foldlM (fun items (i, j) =>
    if i < items.length && j < items.length then swapAt items i j else some items) items

theorem swapAt_eq {α : Type} {items : List α} {i j : Nat} (inRangeI : i < items.length)
    (inRangeJ : j < items.length) : swapAt items i j = some (exchangeAt items i j) := by
  simp [swapAt, exchangeAt, replaceAt, inRangeI, inRangeJ]

theorem apply_eq {α : Type} (plan : Plan) (items : List α) :
    apply plan items = some (plan.apply items) := by
  refine foldlM_eq_some_foldl (fun _ => True) trivial fun later _ pair _ => ⟨?_, trivial⟩
  obtain ⟨i, j⟩ := pair
  dsimp only
  split
  case isTrue inRange =>
    simp only [Bool.and_eq_true, decide_eq_true_eq] at inRange
    exact swapAt_eq inRange.1 inRange.2
  case isFalse outside =>
    simp only [Bool.and_eq_true, decide_eq_true_eq, not_and, Nat.not_lt] at outside
    unfold exchangeAt
    split
    case h_1 foundI foundJ =>
      obtain ⟨inRangeI, _⟩ := List.getElem?_eq_some_iff.mp foundI
      obtain ⟨inRangeJ, _⟩ := List.getElem?_eq_some_iff.mp foundJ
      exact absurd (outside inRangeI) (Nat.not_le_of_lt inRangeJ)
    case h_2 => rfl

end Troupe.Checked
