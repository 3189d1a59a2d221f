import Troupe.Actor.Id

/-! # A pool of identities

Indices are used again, but never with the same generation. Programs get their identities from
such a pool.
-/

namespace Troupe

/-- The identities to hand out: those given back, the last one first, and then the
    indices never used. -/
structure IdPool where
  returned : List ActorId
  unused : Nat
deriving Repr, DecidableEq, Inhabited

namespace IdPool

def full : IdPool := ⟨[], 0⟩

def take (pool : IdPool) : ActorId × IdPool :=
  match pool.returned with
  | id :: rest => (id, { pool with returned := rest })
  | [] => (⟨pool.unused, 1⟩, { pool with unused := pool.unused + 1 })

/-- The pool after an identity went out of use: its index can be used again under the
    next generation. -/
def giveBack (pool : IdPool) (id : ActorId) : IdPool :=
  { pool with returned := ⟨id.index, id.generation + 1⟩ :: pool.returned }

instance : IdSource := ⟨IdPool, full, take, giveBack⟩

example : (full.take.2.giveBack ⟨0, 1⟩).take.1 = ⟨0, 2⟩ := by decide

end IdPool

end Troupe
