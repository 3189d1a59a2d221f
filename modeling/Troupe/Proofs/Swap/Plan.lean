import Troupe.Swap.Plan

/-! # A plan moves whatever it is applied to in the same way

The exchanges of a plan look at indices only, so what ends at an index comes from an index
that does not depend on the items. It is read off the plan applied to the indices
themselves, `plan.apply (List.range n)`. Indices without an exchange keep their items.
-/

namespace Troupe.Swap

variable {α β : Type}

/-! ## One exchange -/

@[simp] theorem length_exchangeAt (items : List α) (i j : Nat) :
    (exchangeAt items i j).length = items.length := by
  unfold exchangeAt
  split <;> simp

theorem map_exchangeAt (f : α → β) (items : List α) (i j : Nat) :
    (exchangeAt items i j).map f = exchangeAt (items.map f) i j := by
  unfold exchangeAt
  simp only [List.getElem?_map]
  cases items[i]? <;> cases items[j]? <;> simp [List.map_set]

theorem getElem?_exchangeAt_of_ne {i j k : Nat} (items : List α) (notI : i ≠ k) (notJ : j ≠ k) :
    (exchangeAt items i j)[k]? = items[k]? := by
  unfold exchangeAt
  split
  case h_1 => rw [List.getElem?_set_ne notJ, List.getElem?_set_ne notI]
  case h_2 => rfl

theorem exchangeAt_perm (items : List α) (i j : Nat) : (exchangeAt items i j).Perm items := by
  unfold exchangeAt
  split
  case h_1 atI atJ foundI foundJ =>
    obtain ⟨inRangeI, rfl⟩ := List.getElem?_eq_some_iff.mp foundI
    obtain ⟨inRangeJ, rfl⟩ := List.getElem?_eq_some_iff.mp foundJ
    exact List.set_set_perm inRangeI inRangeJ
  case h_2 => exact .rfl

/-! ## All exchanges of a plan -/

namespace Plan

@[simp] theorem length_apply (plan : Plan) (items : List α) :
    (plan.apply items).length = items.length := by
  obtain ⟨pairs⟩ := plan
  simp only [apply]
  induction pairs generalizing items with
  | nil => rfl
  | cons pair rest ih => rw [List.foldl_cons, ih, length_exchangeAt]

theorem map_apply (f : α → β) (plan : Plan) (items : List α) :
    (plan.apply items).map f = plan.apply (items.map f) := by
  obtain ⟨pairs⟩ := plan
  simp only [apply]
  induction pairs generalizing items with
  | nil => rfl
  | cons pair rest ih => rw [List.foldl_cons, List.foldl_cons, ih, map_exchangeAt]

theorem apply_perm (plan : Plan) (items : List α) : (plan.apply items).Perm items := by
  obtain ⟨pairs⟩ := plan
  simp only [apply]
  induction pairs generalizing items with
  | nil => exact .rfl
  | cons pair rest ih => exact (ih _).trans (exchangeAt_perm items pair.1 pair.2)

theorem getElem?_apply (plan : Plan) (items : List α) (i : Nat) :
    (plan.apply items)[i]? = (plan.apply (List.range items.length))[i]?.bind (items[·]?) := by
  have listed : (List.range items.length).map (items[·]?) = items.map some := by
    apply List.ext_getElem <;> simp
  -- Both sides are readings of the plan applied to the items, each wrapped in `some`.
  have both := (map_apply some plan items).trans
    ((congrArg plan.apply listed).symm.trans (map_apply (items[·]?) plan _).symm)
  have atIndex := congrArg (·[i]?) both
  simp only [List.getElem?_map] at atIndex
  cases ends : (plan.apply (List.range items.length))[i]? with
  | none => simpa [ends] using atIndex
  | some source =>
    rw [ends, Option.map_some] at atIndex
    cases item : (plan.apply items)[i]? with
    | none => simp [item] at atIndex
    | some found => simpa [item] using atIndex

theorem getElem?_apply_of_not_involves {plan : Plan} {i : Nat} (apart : plan.involves i = false)
    (items : List α) : (plan.apply items)[i]? = items[i]? := by
  obtain ⟨pairs⟩ := plan
  simp only [apply]
  induction pairs generalizing items with
  | nil => rfl
  | cons pair rest ih =>
    simp only [involves, List.any_cons, Bool.or_eq_false_iff, decide_eq_false_iff_not] at apart
    rw [List.foldl_cons, ih _ apart.2, getElem?_exchangeAt_of_ne items apart.1.1 apart.1.2]

end Plan

end Troupe.Swap
