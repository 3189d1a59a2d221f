import Troupe.Geometry.Point

/-! # Grids

A grid sorts entries by the square cell they lie in, so that the neighbours of a position
are found without looking at everything. Cells share a fixed number of buckets; a query
reads the buckets of nine cells and can report an entry of a cell far away, or one entry
more than once, so callers check distances.

* `Cell`, `Cell.around` — a cell, and the nine cells of a query.
* `Grid.insert`, `Grid.near` — an entry put in, and the entries of nine cells.
-/

namespace Troupe.Swap

open Troupe.Geometry (Point)
open Troupe.Number (larger floorWord)

/-! ## Cells -/

/-- A square cell by column and row, which wrap around at the ends of a 32-bit word. -/
structure Cell where
  column : Int32
  row : Int32
deriving Repr, DecidableEq, Inhabited

/-- The offsets to a cell itself and its two neighbours along one axis. -/
def offsets : List Int32 := [-1, 0, 1]

/-- A cell and the eight around it, row by row. -/
def Cell.around (cell : Cell) : List Cell :=
  offsets.flatMap fun dy => offsets.map fun dx => ⟨cell.column + dx, cell.row + dy⟩

def Cell.hash (cell : Cell) : UInt32 :=
  (cell.column.toUInt32 * 73856093) ^^^ (cell.row.toUInt32 * 19349663)

/-! ## Grids -/

/-- Entries by cell. The number of buckets is positive when the grid comes from
    `Grid.empty`. -/
structure Grid where
  cellsPerPixel : Float32
  buckets : Array (List Nat)
deriving Repr, Inhabited

namespace Grid

/-- The least side of a cell: the distance from one to the next single-precision
    number. -/
def leastSide : Float32 := .ofBits 0x34000000

/-- A grid without entries, of cells with the given side and at least one bucket. -/
def empty (side : Float32) (bucketCount : Nat) : Grid :=
  ⟨1 / larger side leastSide, Array.replicate (max bucketCount 1) []⟩

def clear (grid : Grid) : Grid :=
  { grid with buckets := Array.replicate grid.buckets.size [] }

def cellAt (grid : Grid) (position : Point) : Cell :=
  ⟨floorWord (position.x * grid.cellsPerPixel), floorWord (position.y * grid.cellsPerPixel)⟩

def bucketOf (grid : Grid) (cell : Cell) : Nat :=
  cell.hash.toNat % grid.buckets.size

/-- The entries in the bucket of a cell, in the order in which they were put in. -/
def entriesAt (grid : Grid) (cell : Cell) : List Nat :=
  grid.buckets.getD (grid.bucketOf cell) []

def insert (grid : Grid) (position : Point) (entry : Nat) : Grid :=
  { grid with
    buckets := grid.buckets.modify (grid.bucketOf (grid.cellAt position)) (· ++ [entry]) }

/-- The entries in the buckets of the cell of a position and the eight cells around it. -/
def near (grid : Grid) (position : Point) : List Nat :=
  (grid.cellAt position).around.flatMap grid.entriesAt

/-- The grid with all entries replaced by the numbers of the given positions. -/
def rebuild (grid : Grid) (positions : List Point) : Grid :=
  positions.zipIdx.foldl (fun grid (position, i) => grid.insert position i) grid.clear

end Grid

end Troupe.Swap
