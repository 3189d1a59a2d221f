import Troupe.Number.Conversion

/-! # Operations that can fail

Some operations have an answer for some of their arguments only: a number can be moved between
limits that are in order, a count can go down unless it is zero, a remainder needs something to
divide by, and a place in a list has to exist. Here these operations fail, with no answer, for all
other arguments. The definitions that use them follow those of the library step by step and fail
as soon as one of their operations does.

* `clamp`, `decrement`, `modulo` — on numbers.
* `insertAt`, `removeAt`, `replaceAt`, `swapAt` — on lists.
* `mapM_eq_some_map`, `filterMap_mapM_eq_some`, `foldlM_eq_some_foldl` — loops in which no step
  fails.
-/

namespace Troupe.Checked

/-! ## Numbers -/

/-- Fails for limits in the wrong order, and for a limit that is `NaN`. -/
def clamp {α : Type} [LT α] [DecidableLT α] [LE α] [DecidableLE α] (low high x : α) : Option α :=
  if low ≤ high then some (Number.clamp low high x) else none

def decrement (n : Nat) : Option Nat :=
  if 0 < n then some (n - 1) else none

def modulo (n divisor : Nat) : Option Nat :=
  if 0 < divisor then some (n % divisor) else none

/-! ## Lists -/

section Lists

variable {α β : Type}

def insertAt (items : List α) (index : Nat) (item : α) : Option (List α) :=
  if index ≤ items.length then some (items.insertIdx index item) else none

/-- The item at an index, and the list without it. -/
def removeAt (items : List α) (index : Nat) : Option (α × List α) :=
  items[index]?.map fun item => (item, items.eraseIdx index)

def replaceAt (items : List α) (index : Nat) (item : α) : Option (List α) :=
  if index < items.length then some (items.set index item) else none

def swapAt (items : List α) (i j : Nat) : Option (List α) := do
  let atI ← items[i]?
  let atJ ← items[j]?
  let items ← replaceAt items i atJ
  replaceAt items j atI

theorem mapM_eq_some_map {items : List α} {f : α → Option β} {g : α → β}
    (answers : ∀ item ∈ items, f item = some (g item)) : items.mapM f = some (items.map g) := by
  induction items with
  | nil => rfl
  | cons item rest ih =>
    obtain ⟨first, others⟩ := List.forall_mem_cons.mp answers
    rw [List.mapM_cons, first, ih others]
    rfl

theorem filterMap_mapM_eq_some {items : List α} {f : α → Option (Option β)} {g : α → Option β}
    (answers : ∀ item ∈ items, f item = some (g item)) :
    (items.mapM f).map (List.filterMap id) = some (items.filterMap g) := by
  rw [mapM_eq_some_map answers, Option.map_some, List.filterMap_map, Function.id_comp]

/-- A loop whose steps keep what they need to answer. -/
theorem foldlM_eq_some_foldl (ready : β → Prop) {items : List α} {f : β → α → Option β}
    {g : β → α → β} {start : β} (begins : ready start)
    (answers : ∀ state, ready state → ∀ item ∈ items,
      f state item = some (g state item) ∧ ready (g state item)) :
    items.foldlM f start = some (items.foldl g start) := by
  induction items generalizing start with
  | nil => rfl
  | cons item rest ih =>
    obtain ⟨first, kept⟩ := answers start begins item List.mem_cons_self
    rw [List.foldlM_cons, first, List.foldl_cons]
    exact ih kept fun state ready item member =>
      answers state ready item (List.mem_cons_of_mem _ member)

end Lists

end Troupe.Checked
