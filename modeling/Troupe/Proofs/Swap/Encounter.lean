import Troupe.Swap.Encounter

/-! # Who meets whom

An encounter is reported between two actors that were both listed with a position. A pair is found
from the entry that is listed first, if the grid offers the other one; which ones the grid offers is
not needed here.

* `mem_closePairs_iff`, `mem_unseen_iff` — the pairs that are found, and those that are new.
* `listed_of_mem_update` — both actors of an encounter that begins were listed.
-/

namespace Troupe.Swap.Encounters

/-- Whether both actors of a pair were listed. -/
def Listed (placed : List Placed) (pair : ActorId × ActorId) : Prop :=
  pair.1 ∈ placed.map (·.1) ∧ pair.2 ∈ placed.map (·.1)

variable {encounters : Encounters} {placed : List Placed} {pair : ActorId × ActorId}

theorem listed_orderedPair {me other : Placed} (meListed : me ∈ placed)
    (otherListed : other ∈ placed) : Listed placed (ActorId.orderedPair me.1 other.1) := by
  have first := List.mem_map_of_mem (f := fun item : Placed => item.1) meListed
  have second := List.mem_map_of_mem (f := fun item : Placed => item.1) otherListed
  unfold ActorId.orderedPair
  split
  · exact ⟨first, second⟩
  · exact ⟨second, first⟩

theorem mem_closePairs_iff :
    pair ∈ encounters.closePairs placed ↔
      ∃ (i j : Nat) (me other : Placed), i < j ∧ placed[i]? = some me ∧ placed[j]? = some other ∧
        j ∈ (encounters.gridOf placed).near me.2 ∧ encounters.isClose me.2 other.2 = true ∧
        pair = ActorId.orderedPair me.1 other.1 := by
  simp only [closePairs, closeAmong, List.mem_flatMap, List.mem_filterMap]
  constructor
  · rintro ⟨⟨me, i⟩, numbered, j, offered, found⟩
    have atI : placed[i]? = some me := List.mem_zipIdx_iff_getElem?.mp numbered
    split at found
    case isFalse => cases found
    case isTrue before =>
      split at found
      case h_2 => cases found
      case h_1 other atJ =>
        split at found
        case isFalse => cases found
        case isTrue close =>
          exact ⟨i, j, me, other, before, atI, atJ, offered, close, (Option.some.inj found).symm⟩
  · rintro ⟨i, j, me, other, before, atI, atJ, offered, close, rfl⟩
    refine ⟨(me, i), List.mem_zipIdx_iff_getElem?.mpr atI, j, offered, ?_⟩
    simp only [if_pos before, atJ, close, if_true]

theorem listed_of_mem_closePairs (close : pair ∈ encounters.closePairs placed) :
    Listed placed pair := by
  obtain ⟨i, j, me, other, _, atI, atJ, _, _, rfl⟩ := mem_closePairs_iff.mp close
  exact listed_orderedPair (List.mem_of_getElem? atI) (List.mem_of_getElem? atJ)

theorem mem_unseen_iff {known pairs : List (ActorId × ActorId)} :
    pair ∈ unseen known pairs ↔ pair ∈ pairs ∧ pair ∉ known := by
  induction pairs generalizing known with
  | nil => simp [unseen]
  | cons first rest ih =>
    unfold unseen
    by_cases again : first ∈ known
    · rw [if_pos (by simpa using again), ih, List.mem_cons]
      grind
    · rw [if_neg (by simpa using again), List.mem_cons, ih, List.mem_cons, List.mem_cons]
      grind

theorem listed_of_mem_update (begins : pair ∈ (encounters.update placed).1) :
    Listed placed pair :=
  listed_of_mem_closePairs (mem_unseen_iff.mp begins).1

end Troupe.Swap.Encounters
