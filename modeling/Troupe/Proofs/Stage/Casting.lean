import Troupe.Proofs.Stage.Lineup
import Troupe.Proofs.Swap.Permutation

/-! # Scripts and destinations are permuted alike

A lineup applies its plan twice, to the scripts of the cast and to the places they lead to. A plan
is one permutation of the indices, whatever it is applied to. So the script of a part and the place
to walk to come from one and the same actor.

* `part_of_origin` — the part at an index, by the permutation.
* `plan_is_permutation` — what a plan does to any list, and to a cast.
-/

namespace Troupe.Stage

open Troupe.Geometry (Segment)
open Troupe.Number (Trigonometry)
open Troupe.Swap
open Troupe.Swap.Plan (Precedes)

variable [Trigonometry]

theorem part_of_origin (settings : Settings) (cast : List Actor) (i : Fin cast.length) :
    (lineup settings cast).parts[i.val]? =
      some (partOf settings cast i cast[i]
        cast[(castPlan settings cast).origin cast.length i]) := by
  obtain ⟨source, origin, ends, comes, isPart⟩ :=
    part_of_actor settings cast (List.getElem?_eq_getElem i.isLt)
  have origins := (castPlan settings cast).getElem?_apply_origin List.length_range i
  rw [ends, List.getElem?_range (Fin.isLt _)] at origins
  obtain rfl := Option.some.inj origins
  rw [List.getElem?_eq_getElem (Fin.isLt _)] at comes
  obtain rfl := Option.some.inj comes
  exact isPart

/-- A plan takes the items at the indices of a permutation that depends on the pairs and on the
    number of items only. It leaves alone the indices that it does not involve, and the reversed
    plan goes back. The pairs of a plan for paths are in ascending order and are those of the paths
    that cross, smaller index first. The parts of a lineup take script and destination from the
    actor at the index that the permutation of its plan names. -/
theorem plan_is_permutation (plan : Plan) :
    (∀ {α : Type} (items : List α) (i : Fin items.length),
        (plan.apply items).length = items.length ∧
          (plan.apply items)[i.val]? = some items[plan.origin items.length i]) ∧
      (∀ n (i : Fin n), plan.involves i = false → plan.origin n i = i) ∧
      (∀ {α : Type} (items : List α),
        plan.reverse.apply (plan.apply items) = items ∧
          plan.apply (plan.reverse.apply items) = items) ∧
      (∀ (paths : List Segment) (tolerance : Float32),
        (Plan.ofPaths paths tolerance).pairs.Pairwise Precedes ∧
          ∀ i j, (i, j) ∈ (Plan.ofPaths paths tolerance).pairs ↔
            i < j ∧ ∃ inRange : j < paths.length, ∃ first : i < paths.length,
              paths[i].crosses paths[j] tolerance = true) ∧
      ∀ (settings : Settings) (cast : List Actor) (i : Fin cast.length),
        (lineup settings cast).parts[i.val]? =
          some (partOf settings cast i cast[i]
            cast[(castPlan settings cast).origin cast.length i]) := by
  refine ⟨fun items i => ⟨plan.length_apply items, plan.getElem_apply items i⟩,
    fun _ _ => Plan.origin_of_not_involves, fun items => ⟨plan.reverse_apply_apply items, ?_⟩,
    fun paths tolerance => ⟨Plan.pairwise_ofPaths tolerance paths, fun i j => ?_⟩, part_of_origin⟩
  · have back := plan.reverse.reverse_apply_apply items
    rwa [plan.reverse_reverse] at back
  · rw [Plan.mem_ofPaths_iff]
    constructor
    · rintro ⟨before, a, b, atI, atJ, crosses⟩
      obtain ⟨first, rfl⟩ := List.getElem?_eq_some_iff.mp atI
      obtain ⟨inRange, rfl⟩ := List.getElem?_eq_some_iff.mp atJ
      exact ⟨before, inRange, first, crosses⟩
    · rintro ⟨before, inRange, first, crosses⟩
      exact ⟨before, _, _, List.getElem?_eq_getElem first, List.getElem?_eq_getElem inRange,
        crosses⟩

end Troupe.Stage
