import Troupe.Proofs.Swap.Grid

/-! # What a grid holds

A grid forgets where its entries were put in, and even in which cell. It is the record of what was
put in since it was last emptied that tells: every bucket lists the entries of all cells that are
folded into it, and nothing else. So whatever was done to a grid before, a query reports each entry
of the nine cells around a position as often as it was put in there or more often, and it reports
nothing from before the grid was emptied.

* `Change`, `afterAll` — anything that is done to a grid, and what becomes of it.
* `Change.records`, `contents` — the record of what was put in.
* `Lists` — that the buckets agree with the record; `Lists.after`, `lists_afterAll`.
* `reports_contents` — what a query reports after any sequence of changes.
-/

namespace Troupe.Swap.Grid

open Troupe.Geometry (Point)

/-! ## Changes -/

/-- Something that is done to a grid. -/
inductive Change where
  | insert (position : Point) (entry : UInt32)
  | clear
  | rebuild (positions : List Point)
deriving Repr, Inhabited

def after (grid : Grid) : Change → Grid
  | .insert position entry => grid.insert position entry.toNat
  | .clear => grid.clear
  | .rebuild positions => grid.rebuild positions

def afterAll (grid : Grid) (changes : List Change) : Grid :=
  changes.foldl after grid

/-- The entries that a query finds, as the words that entries are. The numbers of a rebuild start
    over where words do. -/
def reports (grid : Grid) (position : Point) : List UInt32 :=
  (grid.near position).map UInt32.ofNat

/-- What was put in, and where, before and by a change. -/
def Change.records (items : List (Point × UInt32)) : Change → List (Point × UInt32)
  | .insert position entry => items ++ [(position, entry)]
  | .clear => []
  | .rebuild positions => positions.zipIdx.map fun (position, i) => (position, .ofNat i)

/-- What was put in, and where, since the last time that everything was taken out. -/
def contents (changes : List Change) : List (Point × UInt32) :=
  changes.foldl Change.records []

variable {grid : Grid} {items : List (Point × UInt32)}

theorem size_after (grid : Grid) (change : Change) :
    (grid.after change).buckets.size = grid.buckets.size := by
  cases change with
  | insert position entry => exact size_insert grid position entry.toNat
  | clear => exact size_clear grid
  | rebuild positions => exact size_rebuild grid positions

theorem cellAt_after (grid : Grid) (change : Change) :
    (grid.after change).cellAt = grid.cellAt := by
  cases change with
  | insert position entry => exact cellAt_insert grid position entry.toNat
  | clear => exact cellAt_clear grid
  | rebuild positions => exact funext (cellAt_rebuild grid positions)

theorem share_after (grid : Grid) (change : Change) : (grid.after change).Share = grid.Share := by
  funext a b
  simp only [Share, bucketOf, size_after]

/-! ## Buckets -/

/-- Whether a grid has buckets, and each of them lists what the record has for its cells, in
    order. -/
structure Lists (grid : Grid) (items : List (Point × UInt32)) : Prop where
  stocked : 0 < grid.buckets.size
  entries : ∀ cell, (grid.entriesAt cell).map UInt32.ofNat =
    (items.filter fun item => grid.Share (grid.cellAt item.1) cell).map (·.2)

theorem lists_empty (side : Float32) (bucketCount : Nat) : (empty side bucketCount).Lists [] where
  stocked := size_empty side bucketCount
  entries cell := by
    rw [show (empty side bucketCount).entriesAt cell = [] by
      simp only [entriesAt, empty, Array.getD_eq_getD_getElem?, Array.getElem?_replicate]
      split <;> rfl]
    rfl

/-- Every change does to the buckets what it does to the record. -/
theorem Lists.after (lists : grid.Lists items) (change : Change) :
    (grid.after change).Lists (change.records items) := by
  refine ⟨(size_after grid change).symm ▸ lists.stocked, fun cell => ?_⟩
  simp only [share_after, cellAt_after]
  cases change with
  | insert position entry =>
    rw [Grid.after, entriesAt_insert lists.stocked, List.map_append, lists.entries, Change.records,
      List.filter_append, List.map_append]
    by_cases shares : grid.Share (grid.cellAt position) cell <;> simp [shares]
  | clear =>
    rw [Grid.after, entriesAt_clear]
    rfl
  | rebuild positions =>
    rw [Grid.after, entriesAt_rebuild lists.stocked, Change.records, List.filter_map, List.map_map,
      List.map_map]
    rfl

/-- The induction is on the changes, with the grid and the record that they start from. -/
theorem Lists.foldl (lists : grid.Lists items) (changes : List Change) :
    (changes.foldl Grid.after grid).Lists (changes.foldl Change.records items) := by
  induction changes generalizing grid items with
  | nil => exact lists
  | cons change rest ih => exact ih (lists.after change)

theorem lists_afterAll (side : Float32) (bucketCount : Nat) (changes : List Change) :
    ((empty side bucketCount).afterAll changes).Lists (contents changes) :=
  (lists_empty side bucketCount).foldl changes

/-! ## Queries -/

/-- The buckets of the nine cells, one after the other. -/
theorem Lists.reports_eq (lists : grid.Lists items) (position : Point) :
    grid.reports position = (grid.cellAt position).around.flatMap fun cell =>
      (items.filter fun item => grid.Share (grid.cellAt item.1) cell).map (·.2) := by
  simp only [reports, near, List.map_flatMap, lists.entries]

theorem countP_or_le {α : Type} (items : List α) (p q : α → Prop) [DecidablePred p]
    [DecidablePred q] :
    (items.countP fun item => p item ∨ q item) ≤
      (items.countP fun item => p item) + items.countP fun item => q item := by
  induction items with
  | nil => simp
  | cons item rest ih =>
    simp only [List.countP_cons]
    by_cases left : p item <;> by_cases right : q item <;>
      simp [left, right, -Bool.decide_or] <;> omega

/-- What was put into one of several cells is reported for that cell, next to whatever else is in
    its bucket. -/
theorem countP_le_count_flatMap (grid : Grid) (items : List (Point × UInt32)) (entry : UInt32)
    (cells : List Cell) :
    (items.countP fun item => item.2 = entry ∧ grid.cellAt item.1 ∈ cells) ≤
      (cells.flatMap fun cell =>
        (items.filter fun item => grid.Share (grid.cellAt item.1) cell).map (·.2)).count entry := by
  induction cells with
  | nil => simp
  | cons cell rest ih =>
    rw [List.flatMap_cons, List.count_append]
    have here : (items.countP fun item => item.2 = entry ∧ grid.cellAt item.1 = cell) ≤
        ((items.filter fun item =>
          grid.Share (grid.cellAt item.1) cell).map (·.2)).count entry := by
      rw [List.count, List.countP_map, List.countP_filter]
      refine List.countP_mono_left fun item _ found => ?_
      obtain ⟨same, inCell⟩ := of_decide_eq_true found
      simp [same, inCell, Share]
    have both := countP_or_le items (fun item => item.2 = entry ∧ grid.cellAt item.1 = cell)
      fun item => item.2 = entry ∧ grid.cellAt item.1 ∈ rest
    simp only [← and_or_left, ← List.mem_cons] at both
    omega

/-- A query reports every entry at least as often as it was put in, since everything was last taken
    out, at positions whose cells are the cell of the query or touch it. It reports nothing that was
    not put in since then. -/
theorem reports_contents (side : Float32) (bucketCount : Nat) (changes : List Change)
    (position : Point) (entry : UInt32) :
    let grid := (empty side bucketCount).afterAll changes
    ((contents changes).countP fun item =>
        item.2 = entry ∧ (grid.cellAt position).IsBeside (grid.cellAt item.1)) ≤
      (grid.reports position).count entry ∧
    (entry ∈ grid.reports position → entry ∈ (contents changes).map (·.2)) := by
  intro grid
  have lists : grid.Lists (contents changes) := lists_afterAll side bucketCount changes
  rw [lists.reports_eq position]
  constructor
  · simp only [← Cell.mem_around_iff]
    exact countP_le_count_flatMap grid (contents changes) entry (grid.cellAt position).around
  · intro reported
    obtain ⟨cell, _, listed⟩ := List.mem_flatMap.mp reported
    obtain ⟨item, found, rfl⟩ := List.mem_map.mp listed
    exact List.mem_map_of_mem (List.mem_filter.mp found).1

-- A grid with one bucket reports what was put in far away, nine times over, and what was put in
-- before it was emptied not at all.
example :
    let grid := (empty 160 0).afterAll [.insert ⟨50, 50⟩ 42, .clear, .insert ⟨900, 500⟩ 7]
    grid.reports ⟨50, 50⟩ = List.replicate 9 7 ∧
      ¬ (grid.cellAt ⟨50, 50⟩).IsBeside (grid.cellAt ⟨900, 500⟩) := by
  decide +kernel

end Troupe.Swap.Grid
