import Troupe.Geometry.Segment

/-! # Swap plans

A swap plan is a list of index pairs, exchanged one after the other.

* `Plan.apply` — the exchanges carried out on a list.
* `Plan.ofPaths` — the pairs of paths that cross.
-/

namespace Troupe.Swap

open Troupe.Geometry (Segment)

/-- A list with the items at two positions exchanged; unchanged if it lacks either. -/
def exchangeAt {α : Type} (items : List α) (i j : Nat) : List α :=
  match items[i]?, items[j]? with
  | some atI, some atJ => (items.set i atJ).set j atI
  | _, _ => items

/-- Pairs of indices in the order in which they are exchanged. -/
structure Plan where
  pairs : List (Nat × Nat)
deriving Repr, DecidableEq, Inhabited

namespace Plan

def empty : Plan := ⟨[]⟩

def isEmpty (plan : Plan) : Bool :=
  plan.pairs.isEmpty

def involves (plan : Plan) (i : Nat) : Bool :=
  plan.pairs.any fun pair => pair.1 = i || pair.2 = i

/-- The items after all exchanges, one after the other: an index in several pairs is
    exchanged several times. -/
def apply {α : Type} (plan : Plan) (items : List α) : List α :=
  plan.pairs.foldl (fun items pair => exchangeAt items pair.1 pair.2) items

example : apply ⟨[(0, 1), (0, 2), (1, 2)]⟩ ['a', 'b', 'c'] = ['c', 'b', 'a'] := by decide

/-- The crossing pairs among paths that are numbered from `i` on. -/
def pairsFrom (tolerance : Float32) (i : Nat) : List Segment → List (Nat × Nat)
  | [] => []
  | path :: rest =>
    ((rest.zipIdx (i + 1)).filter fun (other, _) => path.crosses other tolerance).map
        (fun (_, j) => (i, j))
      ++ pairsFrom tolerance (i + 1) rest

/-- The plan that exchanges every two paths that cross: each pair once, the smaller index
    first, in ascending order. -/
def ofPaths (paths : List Segment) (tolerance : Float32) : Plan :=
  ⟨pairsFrom tolerance 0 paths⟩

end Plan

end Troupe.Swap
