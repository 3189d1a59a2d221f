import Mathlib.Data.List.Nodup
import Troupe.Actor.Pool
import Troupe.Proofs.Actor.Keyed

/-! # Identities are new

What is expected of a source of identities is that it never hands out one that is in use or that
it has handed out before. A pool of identities keeps to that: when an index is used again, it comes
with a greater generation than all identities had that used the index before.

* `IdSource.Issued` — the identities handed out so far, and those of them in use.
* `LawfulIdSource` — a source whose identities are new.
* `IdPool.Remembers` — what a pool knows of both.
-/

namespace Troupe

/-! ## Sources -/

namespace IdSource

/-- What a source comes to when identities are handed out and go out of use, together with all
    identities handed out so far and with those in use. -/
inductive Issued [IdSource] : (made live : List ActorId) → Pool → Prop
  | nobody : Issued [] [] full
  | taken {made live : List ActorId} {pool : Pool} (issued : Issued made live pool) :
      Issued (made ++ [(take pool).1]) (live ++ [(take pool).1]) (take pool).2
  | givenBack {made live : List ActorId} {pool : Pool} {id : ActorId}
      (issued : Issued made live pool) (inUse : id ∈ live) :
      Issued made (live.filter (· != id)) (giveBack pool id)

end IdSource

/-- A source that hands out no identity that is in use or was handed out before. -/
class LawfulIdSource extends IdSource where
  fresh : ∀ {made live : List ActorId} {pool : Pool},
    IdSource.Issued made live pool → (take pool).1 ∉ made

namespace IdSource.Issued

variable [LawfulIdSource] {made live : List ActorId} {pool : IdSource.Pool}

theorem sublist (issued : Issued made live pool) : live.Sublist made := by
  induction issued with
  | nobody => exact .slnil
  | taken _ ih => exact ih.append (.refl _)
  | givenBack _ _ ih => exact List.filter_sublist.trans ih

theorem nodup (issued : Issued made live pool) : made.Nodup := by
  induction issued with
  | nobody => exact .nil
  | taken issued ih =>
    refine List.nodup_append.mpr ⟨ih, List.nodup_singleton _, ?_⟩
    rintro old member _ isLast rfl
    exact LawfulIdSource.fresh issued (List.mem_singleton.mp isLast ▸ member)
  | givenBack _ _ ih => exact ih

theorem nodup_live (issued : Issued made live pool) : live.Nodup :=
  issued.nodup.sublist issued.sublist

end IdSource.Issued

/-! ## Pools -/

namespace IdPool

/-- What a pool knows of the identities that it handed out, and of those of them in use: no index
    is both in use and to be used again, and the generations of an index ascend. -/
structure Remembers (pool : IdPool) (made live : List ActorId) : Prop where
  known : ∀ id ∈ live, id ∈ made
  apart : (live.map (·.index) ++ pool.returned.map (·.index)).Nodup
  counted : ∀ old ∈ made, old.index < pool.unused
  counts : ∀ id ∈ pool.returned, id.index < pool.unused
  renewed : ∀ id ∈ pool.returned, ∀ old ∈ made, old.index = id.index →
    old.generation < id.generation
  latest : ∀ id ∈ live, ∀ old ∈ made, old.index = id.index → old.generation ≤ id.generation

variable {pool : IdPool} {made live : List ActorId} {id : ActorId}

theorem take_of_returned {rest : List ActorId} (returned : pool.returned = id :: rest) :
    pool.take = (id, { pool with returned := rest }) := by
  rw [take, returned]

theorem take_of_none (returned : pool.returned = []) :
    pool.take = (⟨pool.unused, 1⟩, { pool with unused := pool.unused + 1 }) := by
  rw [take, returned]

namespace Remembers

theorem empty : full.Remembers [] [] :=
  ⟨nofun, .nil, nofun, nofun, nofun, nofun⟩

/-- The identity to hand out next comes after all that have used its index. -/
theorem older (remembers : pool.Remembers made live) {old : ActorId} (member : old ∈ made)
    (sameIndex : old.index = pool.take.1.index) : old.generation < pool.take.1.generation := by
  cases returned : pool.returned with
  | cons id rest =>
    rw [take_of_returned returned] at sameIndex ⊢
    exact remembers.renewed id (returned ▸ List.mem_cons_self) old member sameIndex
  | nil =>
    have used := remembers.counted old member
    rw [sameIndex, take_of_none returned] at used
    exact absurd used (Nat.lt_irrefl _)

theorem fresh (remembers : pool.Remembers made live) : pool.take.1 ∉ made :=
  fun member => Nat.lt_irrefl _ (remembers.older member rfl)

/-- The index of the next identity is neither in use nor to be used again after it. -/
theorem apart_take (remembers : pool.Remembers made live) :
    ((live ++ [pool.take.1]).map (·.index) ++ pool.take.2.returned.map (·.index)).Nodup := by
  have apart := remembers.apart
  cases returned : pool.returned with
  | cons id rest =>
    rw [returned] at apart
    simpa [take_of_returned returned] using apart
  | nil =>
    rw [returned, List.map_nil, List.append_nil] at apart
    simp only [take_of_none returned, returned, List.map_append, List.map_nil, List.append_nil,
      List.map_cons]
    refine List.nodup_append.mpr ⟨apart, List.nodup_singleton _, ?_⟩
    rintro index used _ isNew rfl
    obtain ⟨old, member, rfl⟩ := List.mem_map.mp used
    have below := remembers.counted old (remembers.known old member)
    rw [List.mem_singleton.mp isNew] at below
    exact Nat.lt_irrefl _ below

theorem taken (remembers : pool.Remembers made live) :
    pool.take.2.Remembers (made ++ [pool.take.1]) (live ++ [pool.take.1]) := by
  have apart := remembers.apart_take
  -- What is handed out has an index that neither the others in use nor those to come have.
  have unlikeLive : ∀ id ∈ live, id.index ≠ pool.take.1.index := by
    intro id member
    rw [List.map_append] at apart
    exact (List.nodup_append.mp (List.nodup_append.mp apart).1).2.2 _
      (List.mem_map_of_mem member) _ List.mem_cons_self
  have unlikeReturned : ∀ id ∈ pool.take.2.returned, id.index ≠ pool.take.1.index := by
    intro id member same
    exact (List.nodup_append.mp apart).2.2 _ (by simp) _ (List.mem_map_of_mem member) same.symm
  have grows : pool.unused ≤ pool.take.2.unused ∧ pool.take.1.index < pool.take.2.unused ∧
      ∀ id ∈ pool.take.2.returned, id ∈ pool.returned := by
    cases returned : pool.returned with
    | cons id rest =>
      rw [take_of_returned returned]
      exact ⟨Nat.le_refl _, remembers.counts id (returned ▸ List.mem_cons_self),
        fun other member => List.mem_cons_of_mem _ member⟩
    | nil =>
      rw [take_of_none returned]
      exact ⟨Nat.le_succ _, Nat.lt_succ_self _, fun other member => returned ▸ member⟩
  obtain ⟨more, below, among⟩ := grows
  refine ⟨?known, apart, ?counted, ?counts, ?renewed, ?latest⟩
  case known =>
    exact List.forall_mem_append.mpr
      ⟨fun id member => List.mem_append_left _ (remembers.known id member),
        fun id isNew => List.mem_append_right _ isNew⟩
  case counted =>
    refine List.forall_mem_append.mpr ⟨fun old member => ?_, List.forall_mem_singleton.mpr below⟩
    exact Nat.lt_of_lt_of_le (remembers.counted old member) more
  case counts =>
    exact fun id member => Nat.lt_of_lt_of_le (remembers.counts id (among id member)) more
  case renewed =>
    intro id member
    refine List.forall_mem_append.mpr ⟨?_, List.forall_mem_singleton.mpr fun same => ?_⟩
    · exact remembers.renewed id (among id member)
    · exact absurd same.symm (unlikeReturned id member)
  case latest =>
    refine List.forall_mem_append.mpr ⟨fun id member => ?_, List.forall_mem_singleton.mpr ?_⟩
    · refine List.forall_mem_append.mpr ⟨?_, List.forall_mem_singleton.mpr fun same => ?_⟩
      · exact remembers.latest id member
      · exact absurd same.symm (unlikeLive id member)
    · refine List.forall_mem_append.mpr ⟨fun old before same => ?_, ?_⟩
      · exact Nat.le_of_lt (remembers.older before same)
      · exact List.forall_mem_singleton.mpr fun _ => Nat.le_refl _

theorem givenBack (remembers : pool.Remembers made live) (inUse : id ∈ live) :
    (pool.giveBack id).Remembers made (live.filter (· != id)) := by
  have subset : ∀ other ∈ live.filter (· != id), other ∈ live :=
    fun other member => (List.mem_filter.mp member).1
  have distinct : live.Nodup := (List.nodup_append.mp remembers.apart).1.of_map _
  -- the index changes sides, from those in use to those to be used again
  have apart : ((live.filter (· != id)).map (·.index) ++
      (pool.giveBack id).returned.map (·.index)).Nodup := by
    have others := (@perm_cons_filter ActorId (fun id => id) live id (by simpa using distinct)
      inUse).map (·.index)
    have moved := List.perm_middle.trans (others.append_right (pool.returned.map (·.index)))
    exact moved.nodup_iff.mpr remembers.apart
  refine ⟨fun other member => remembers.known other (subset other member), apart,
    remembers.counted, ?counts, ?renewed, ?latest⟩
  case counts =>
    refine List.forall_mem_cons.mpr ⟨?_, remembers.counts⟩
    exact remembers.counted id (remembers.known id inUse)
  case renewed =>
    refine List.forall_mem_cons.mpr ⟨fun old member same => ?_, remembers.renewed⟩
    exact Nat.lt_succ_of_le (remembers.latest id inUse old member same)
  case latest => exact fun other member => remembers.latest other (subset other member)

end Remembers

theorem remembers_of_issued {pool : IdPool} (issued : IdSource.Issued made live pool) :
    pool.Remembers made live := by
  induction issued with
  | nobody => exact .empty
  | taken _ ih => exact ih.taken
  | givenBack _ inUse ih => exact ih.givenBack inUse

scoped instance : LawfulIdSource where
  fresh issued := (remembers_of_issued issued).fresh

end IdPool

end Troupe
