import Troupe.Actor.Id
import Troupe.Swap.Grid

/-! # Encounters

Two actors meet when they come closer than a radius, and they part when they get farther
apart than it. Every encounter is reported once, when it begins.

* `Encounters` — the encounters that go on.
* `Encounters.update` — the encounters that begin at the given positions.
* `Encounters.isOngoing` — whether two actors met and have not parted.
-/

namespace Troupe.Swap

open Troupe.Geometry (Point)

/-- An actor at a position. -/
abbrev Placed := ActorId × Point

/-- The encounters that go on, as pairs of actors in their order, for a given radius.
    Neighbours are looked up in a grid with the given number of buckets. -/
structure Encounters where
  radius : Float32
  bucketCount : Nat
  ongoing : List (ActorId × ActorId)
deriving Repr, Inhabited

namespace Encounters

def defaultBucketCount : Nat := 256

def new (radius : Float32) : Encounters :=
  ⟨radius, defaultBucketCount, []⟩

def forget (encounters : Encounters) : Encounters :=
  { encounters with ongoing := [] }

def isOngoing (encounters : Encounters) (a b : ActorId) : Bool :=
  encounters.ongoing.contains (ActorId.orderedPair a b)

def radiusSquared (encounters : Encounters) : Float32 :=
  encounters.radius * encounters.radius

/-! ## Parting -/

/-- The position of an actor, the last one listed for it. -/
def positionOf? (placed : List Placed) (actor : ActorId) : Option Point :=
  (placed.reverse.find? (·.1 = actor)).map (·.2)

/-- Whether a pair is still together: both actors are there and not farther apart than
    the radius. -/
def areTogether (encounters : Encounters) (placed : List Placed) (pair : ActorId × ActorId) :
    Bool :=
  match positionOf? placed pair.1, positionOf? placed pair.2 with
  | some a, some b => a.distanceSquared b ≤ encounters.radiusSquared
  | _, _ => false

def dropParted (encounters : Encounters) (placed : List Placed) : Encounters :=
  { encounters with ongoing := encounters.ongoing.filter (encounters.areTogether placed) }

/-! ## Meeting -/

/-- The grid for a list of positions. Its cells are twice as wide as the radius, so that
    the nine cells around a position cover the circle around it. -/
def gridOf (encounters : Encounters) (placed : List Placed) : Grid :=
  (Grid.empty (encounters.radius * 2) encounters.bucketCount).rebuild (placed.map (·.2))

/-- Whether two positions are not at least a radius apart. -/
def isClose (encounters : Encounters) (a b : Point) : Bool :=
  !(encounters.radiusSquared ≤ a.distanceSquared b)

/-- The close pairs that a list of candidate indices has with the actor at index `i`:
    only indices after `i` count, so that every pair has one side to be found from. -/
def closeAmong (encounters : Encounters) (placed : List Placed) (me : Placed) (i : Nat)
    (candidates : List Nat) : List (ActorId × ActorId) :=
  candidates.filterMap fun j =>
    if i < j then
      match placed[j]? with
      | some other =>
        if encounters.isClose me.2 other.2 then some (ActorId.orderedPair me.1 other.1) else none
      | none => none
    else none

/-- All close pairs in the order in which the grid reports them, possibly repeated. -/
def closePairs (encounters : Encounters) (placed : List Placed) : List (ActorId × ActorId) :=
  let grid := encounters.gridOf placed
  placed.zipIdx.flatMap fun (me, i) => encounters.closeAmong placed me i (grid.near me.2)

/-- The pairs of a list that are not among `known`, each once, in order of their first
    occurrence. -/
def unseen (known : List (ActorId × ActorId)) :
    List (ActorId × ActorId) → List (ActorId × ActorId)
  | [] => []
  | pair :: rest =>
    if known.contains pair then unseen known rest else pair :: unseen (pair :: known) rest

/-- Drops the encounters that are over, and reports those that begin now and go on from
    here. -/
def update (encounters : Encounters) (placed : List Placed) :
    List (ActorId × ActorId) × Encounters :=
  let remaining := encounters.dropParted placed
  let begun := unseen remaining.ongoing (remaining.closePairs placed)
  (begun, { remaining with ongoing := remaining.ongoing ++ begun })

end Encounters

end Troupe.Swap
