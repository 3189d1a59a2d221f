import Troupe.Swap.Grid

/-! # What a grid finds

A bucket holds the entries of all cells that are folded into it, in the order in which they were
put in. So a query finds every entry of the nine cells around a position, whatever else shares
their buckets, and nothing that is not in the grid.

* `Cell.IsBeside` — two cells that are the same or touch.
* `entriesAt_rebuild` — the bucket of a cell after a rebuild.
* `mem_near_iff`, `mem_near_of_isBeside` — what a query finds.
-/

namespace Troupe.Swap

open Troupe.Geometry (Point)

/-! ## Cells side by side -/

/-- Whether the columns and the rows of two cells differ by one at most, around the ends of a word. -/
def Cell.IsBeside (a b : Cell) : Prop :=
  b.column - a.column ∈ offsets ∧ b.row - a.row ∈ offsets

instance (a b : Cell) : Decidable (a.IsBeside b) :=
  inferInstanceAs (Decidable (_ ∧ _))

theorem Cell.mem_around_iff {a b : Cell} : b ∈ a.around ↔ a.IsBeside b := by
  obtain ⟨column, row⟩ := b
  simp only [around, IsBeside, List.mem_flatMap, List.mem_map, Cell.mk.injEq]
  constructor
  · rintro ⟨dy, offRow, dx, offColumn, rfl, rfl⟩
    have column : a.column + dx - a.column = dx := by grind
    have row : a.row + dy - a.row = dy := by grind
    rw [column, row]
    exact ⟨offColumn, offRow⟩
  · rintro ⟨offColumn, offRow⟩
    exact ⟨_, offRow, _, offColumn, by grind, by grind⟩

namespace Grid

variable {grid : Grid} {position : Point} {entry : Nat} {cell : Cell}

/-! ## One entry -/

/-- Whether the entries of two cells are in one bucket. -/
def Share (grid : Grid) (a b : Cell) : Prop :=
  grid.bucketOf a = grid.bucketOf b

instance (a b : Cell) : Decidable (grid.Share a b) :=
  inferInstanceAs (Decidable (_ = _))

theorem bucketOf_lt (stocked : 0 < grid.buckets.size) (cell : Cell) :
    grid.bucketOf cell < grid.buckets.size :=
  Nat.mod_lt _ stocked

theorem size_insert (grid : Grid) (position : Point) (entry : Nat) :
    (grid.insert position entry).buckets.size = grid.buckets.size :=
  Array.size_modify

theorem bucketOf_insert (grid : Grid) (position : Point) (entry : Nat) (cell : Cell) :
    (grid.insert position entry).bucketOf cell = grid.bucketOf cell := by
  simp only [bucketOf, size_insert]

theorem cellAt_insert (grid : Grid) (position : Point) (entry : Nat) :
    (grid.insert position entry).cellAt = grid.cellAt := by
  obtain ⟨cellsPerPixel, buckets⟩ := grid
  funext other
  rw [cellAt, cellAt, insert]

theorem share_insert (grid : Grid) (position : Point) (entry : Nat) :
    (grid.insert position entry).Share = grid.Share := by
  funext a b
  simp only [Share, bucketOf_insert]

theorem entriesAt_insert (stocked : 0 < grid.buckets.size) (position : Point) (entry : Nat)
    (cell : Cell) :
    (grid.insert position entry).entriesAt cell =
      grid.entriesAt cell ++ if grid.Share (grid.cellAt position) cell then [entry] else [] := by
  have inRange := bucketOf_lt stocked cell
  rw [entriesAt, bucketOf_insert]
  simp only [entriesAt, insert, Array.getD_eq_getD_getElem?, Array.getElem?_modify,
    Array.getElem?_eq_getElem inRange]
  by_cases shares : grid.Share (grid.cellAt position) cell
  · simp [if_pos shares, show grid.bucketOf (grid.cellAt position) = grid.bucketOf cell from shares]
  · simp [if_neg shares, show grid.bucketOf (grid.cellAt position) ≠ grid.bucketOf cell from shares]

theorem size_clear (grid : Grid) : grid.clear.buckets.size = grid.buckets.size := by
  simp only [clear, Array.size_replicate]

theorem cellAt_clear (grid : Grid) : grid.clear.cellAt = grid.cellAt := rfl

theorem share_clear (grid : Grid) : grid.clear.Share = grid.Share := by
  funext a b
  simp only [Share, bucketOf, size_clear]

theorem entriesAt_clear (grid : Grid) (cell : Cell) : grid.clear.entriesAt cell = [] := by
  simp only [entriesAt, clear, Array.getD_eq_getD_getElem?, Array.getElem?_replicate]
  split <;> rfl

/-! ## All entries -/

/-- The induction is on the entries, with the grid that they are put in. -/
theorem entriesAt_foldl_insert (stocked : 0 < grid.buckets.size) (items : List (Point × Nat))
    (cell : Cell) :
    (items.foldl (fun grid (position, entry) => grid.insert position entry) grid).entriesAt cell =
      grid.entriesAt cell ++
        (items.filter fun item => grid.Share (grid.cellAt item.1) cell).map (·.2) := by
  induction items generalizing grid with
  | nil => simp
  | cons item rest ih =>
    rw [List.foldl_cons, ih (by rwa [size_insert]), entriesAt_insert stocked, List.filter_cons]
    simp only [share_insert, cellAt_insert]
    by_cases shares : grid.Share (grid.cellAt item.1) cell <;> simp [shares]

theorem entriesAt_rebuild (stocked : 0 < grid.buckets.size) (positions : List Point)
    (cell : Cell) :
    (grid.rebuild positions).entriesAt cell =
      (positions.zipIdx.filter fun item => grid.Share (grid.cellAt item.1) cell).map (·.2) := by
  rw [rebuild, entriesAt_foldl_insert (by rwa [size_clear]), entriesAt_clear, List.nil_append]
  simp only [share_clear, cellAt_clear]

theorem cellAt_rebuild (grid : Grid) (positions : List Point) (position : Point) :
    (grid.rebuild positions).cellAt position = grid.cellAt position := by
  have kept (items : List (Point × Nat)) (start : Grid) :
      (items.foldl (fun grid (position, entry) => grid.insert position entry) start).cellAt =
        start.cellAt := by
    induction items generalizing start with
    | nil => rfl
    | cons item rest ih => rw [List.foldl_cons, ih, cellAt_insert]
  rw [rebuild, kept, cellAt_clear]

theorem size_rebuild (grid : Grid) (positions : List Point) :
    (grid.rebuild positions).buckets.size = grid.buckets.size := by
  have kept (items : List (Point × Nat)) (start : Grid) :
      (items.foldl (fun grid (position, entry) => grid.insert position entry) start).buckets.size =
        start.buckets.size := by
    induction items generalizing start with
    | nil => rfl
    | cons item rest ih => rw [List.foldl_cons, ih, size_insert]
  rw [rebuild, kept, size_clear]

/-- A query finds the entries of all cells that share a bucket with one of nine. -/
theorem mem_near_iff (stocked : 0 < grid.buckets.size) {positions : List Point} :
    entry ∈ (grid.rebuild positions).near position ↔
      ∃ listed, positions[entry]? = some listed ∧
        ∃ cell, (grid.cellAt position).IsBeside cell ∧ grid.Share (grid.cellAt listed) cell := by
  simp only [near, cellAt_rebuild, List.mem_flatMap, Cell.mem_around_iff, entriesAt_rebuild stocked,
    List.mem_map, List.mem_filter, decide_eq_true_eq]
  constructor
  · rintro ⟨cell, beside, ⟨listed, i⟩, ⟨numbered, shares⟩, rfl⟩
    exact ⟨listed, List.mem_zipIdx_iff_getElem?.mp numbered, cell, beside, shares⟩
  · rintro ⟨listed, numbered, cell, beside, shares⟩
    refine ⟨cell, beside, (listed, entry), ⟨?_, shares⟩, rfl⟩
    exact List.mem_zipIdx_iff_getElem?.mpr numbered

theorem mem_near_of_isBeside (stocked : 0 < grid.buckets.size) {positions : List Point}
    {listed : Point} (numbered : positions[entry]? = some listed)
    (beside : (grid.cellAt position).IsBeside (grid.cellAt listed)) :
    entry ∈ (grid.rebuild positions).near position :=
  (mem_near_iff stocked).mpr ⟨listed, numbered, _, beside, rfl⟩

theorem size_empty (side : Float32) (bucketCount : Nat) :
    0 < (empty side bucketCount).buckets.size := by
  simp only [empty, Array.size_replicate]
  omega

end Grid

end Troupe.Swap
