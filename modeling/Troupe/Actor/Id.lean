/-! # Actor identities

An identity is an index with a generation. Which identity a new actor gets is not decided here:
identities come from a source, which also learns when one goes out of use.

* `ActorId`, `ActorId.precedes` — identities and their order.
* `IdSource` — a source of identities.
-/

namespace Troupe

/-- The identity of an actor. -/
structure ActorId where
  index : Nat
  generation : Nat
deriving Repr, DecidableEq, Inhabited

namespace ActorId

def label (id : ActorId) : String :=
  toString id.index ++ "v" ++ toString id.generation

/-- The order of identities: by generation, then by index. -/
def precedes (a b : ActorId) : Bool :=
  a.generation < b.generation || (a.generation = b.generation && a.index ≤ b.index)

def orderedPair (a b : ActorId) : ActorId × ActorId :=
  if a.precedes b then (a, b) else (b, a)

end ActorId

/-- Where identities come from: what a source knows, at first and later on, the identity that it
    hands out next, and what becomes of it when an identity goes out of use. -/
class IdSource where
  Pool : Type
  full : Pool
  take : Pool → ActorId × Pool
  giveBack : Pool → ActorId → Pool

end Troupe
