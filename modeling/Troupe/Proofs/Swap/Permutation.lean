import Mathlib.Algebra.BigOperators.Group.List.Basic
import Mathlib.Algebra.Group.End
import Mathlib.Data.List.Sort
import Mathlib.Logic.Equiv.Basic
import Troupe.Proofs.Swap.Crossing
import Troupe.Proofs.Swap.Plan

/-! # The permutation of a plan

Among `n` indices an exchange is a transposition, or nothing if an index of it is out of range, and
a plan is their product. The item that ends at an index is the one that the permutation takes the
index to. Since every transposition undoes itself, the plan with its pairs in reverse order goes
back.

* `transposition`, `Plan.origin` — the permutations.
* `Plan.getElem_apply` — where the items of a plan come from.
* `Plan.reverse_apply_apply` — the way back.
* `Plan.pairwise_ofPaths` — the pairs of a plan for paths are in ascending order.
-/

namespace Troupe.Swap

variable {α : Type}

/-! ## One exchange -/

/-- The transposition of two of `n` indices, and the identity if either is out of range. -/
def transposition (n : Nat) (pair : Nat × Nat) : Equiv.Perm (Fin n) :=
  if inRange : pair.1 < n ∧ pair.2 < n then Equiv.swap ⟨pair.1, inRange.1⟩ ⟨pair.2, inRange.2⟩
  else 1

theorem inv_transposition (n : Nat) (pair : Nat × Nat) :
    (transposition n pair)⁻¹ = transposition n pair := by
  unfold transposition
  split
  case isTrue => exact Equiv.swap_inv _ _
  case isFalse => exact inv_one

theorem transposition_of_ne {n : Nat} {pair : Nat × Nat} {k : Fin n} (notFirst : pair.1 ≠ k)
    (notSecond : pair.2 ≠ k) : transposition n pair k = k := by
  unfold transposition
  split
  case isTrue =>
    exact Equiv.swap_apply_of_ne_of_ne (fun same => notFirst (congrArg Fin.val same).symm)
      fun same => notSecond (congrArg Fin.val same).symm
  case isFalse => rfl

theorem getElem?_exchangeAt {n : Nat} {items : List α} (sized : items.length = n)
    (pair : Nat × Nat) (k : Fin n) :
    (exchangeAt items pair.1 pair.2)[k.val]? = items[(transposition n pair k).val]? := by
  subst sized
  by_cases inRange : pair.1 < items.length ∧ pair.2 < items.length
  case pos =>
    obtain ⟨firstInRange, secondInRange⟩ := inRange
    have exchanged : exchangeAt items pair.1 pair.2 =
        (items.set pair.1 items[pair.2]).set pair.2 items[pair.1] := by
      simp [exchangeAt, firstInRange, secondInRange]
    rw [exchanged, transposition, dif_pos ⟨firstInRange, secondInRange⟩, Equiv.swap_apply_def]
    split
    case isTrue isFirst =>
      subst isFirst
      -- The second `set` is the one that counts if the places are the same.
      by_cases same : pair.2 = pair.1
      · simp [same]
      · rw [List.getElem?_set_ne same]
        simp [firstInRange, secondInRange]
    case isFalse notFirst =>
      split
      case isTrue isSecond =>
        subst isSecond
        simp [firstInRange, secondInRange]
      case isFalse notSecond =>
        rw [List.getElem?_set_ne, List.getElem?_set_ne]
        · exact fun same => notFirst (Fin.ext same.symm)
        · exact fun same => notSecond (Fin.ext same.symm)
  case neg =>
    rw [transposition, dif_neg inRange, Equiv.Perm.one_apply]
    have unchanged : exchangeAt items pair.1 pair.2 = items := by
      unfold exchangeAt
      split
      case h_1 first second =>
        exact absurd ⟨(List.getElem?_eq_some_iff.mp first).1,
          (List.getElem?_eq_some_iff.mp second).1⟩ inRange
      case h_2 => rfl
    rw [unchanged]

/-! ## All exchanges of a plan -/

namespace Plan

/-- Where the items of a list of some length come from: the item that ends at an index was at the
    one that the index is taken to. -/
def origin (plan : Plan) (n : Nat) : Equiv.Perm (Fin n) :=
  (plan.pairs.map (transposition n)).prod

/-- The same exchanges, made in reverse order. -/
def reverse (plan : Plan) : Plan :=
  ⟨plan.pairs.reverse⟩

theorem reverse_reverse (plan : Plan) : plan.reverse.reverse = plan := by
  simp [reverse]

theorem getElem?_apply_origin {n : Nat} (plan : Plan) {items : List α} (sized : items.length = n)
    (i : Fin n) : (plan.apply items)[i.val]? = items[(plan.origin n i).val]? := by
  obtain ⟨pairs⟩ := plan
  simp only [apply, origin]
  -- The last exchange is looked through first.
  induction pairs generalizing items with
  | nil => rfl
  | cons pair rest ih =>
    rw [List.foldl_cons, ih ((length_exchangeAt _ _ _).trans sized), getElem?_exchangeAt sized,
      List.map_cons, List.prod_cons, Equiv.Perm.mul_apply]

theorem getElem_apply (plan : Plan) (items : List α) (i : Fin items.length) :
    (plan.apply items)[i.val]? = some items[plan.origin items.length i] := by
  rw [plan.getElem?_apply_origin rfl i]
  exact List.getElem?_eq_getElem _

theorem origin_of_not_involves {n : Nat} {plan : Plan} {i : Fin n}
    (apart : plan.involves i = false) : plan.origin n i = i := by
  obtain ⟨pairs⟩ := plan
  simp only [origin]
  induction pairs with
  | nil => rfl
  | cons pair rest ih =>
    simp only [involves, List.any_cons, Bool.or_eq_false_iff, decide_eq_false_iff_not] at apart
    rw [List.map_cons, List.prod_cons, Equiv.Perm.mul_apply, ih apart.2,
      transposition_of_ne apart.1.1 apart.1.2]

theorem origin_reverse (plan : Plan) (n : Nat) : plan.reverse.origin n = (plan.origin n)⁻¹ := by
  rw [origin, origin, List.prod_inv_reverse, List.map_map]
  simp only [reverse, List.map_reverse, Function.comp_def, inv_transposition]

theorem reverse_apply_apply (plan : Plan) (items : List α) :
    plan.reverse.apply (plan.apply items) = items := by
  refine List.ext_getElem? fun i => ?_
  by_cases inRange : i < items.length
  · have back := plan.reverse.getElem?_apply_origin (plan.length_apply items) ⟨i, inRange⟩
    rw [plan.getElem?_apply_origin rfl, origin_reverse, ← Equiv.Perm.mul_apply,
      mul_inv_cancel] at back
    exact back
  · simp only [Nat.not_lt] at inRange
    rw [List.getElem?_eq_none (by simpa using inRange), List.getElem?_eq_none inRange]

/-! ## Plans for paths -/

/-- The order of pairs by their first index, and by their second if the first ones are the same. -/
def Precedes (pair later : Nat × Nat) : Prop :=
  pair.1 < later.1 ∨ pair.1 = later.1 ∧ pair.2 < later.2

open Troupe.Geometry (Segment)

theorem pairwise_pairsFrom (tolerance : Float32) (start : Nat) (paths : List Segment) :
    (pairsFrom tolerance start paths).Pairwise Precedes := by
  induction paths generalizing start with
  | nil => exact .nil
  | cons path rest ih =>
    rw [pairsFrom, List.pairwise_append]
    refine ⟨?own, ih _, ?others⟩
    case own =>
      have numbered : (rest.zipIdx (start + 1)).Pairwise fun one other => one.2 < other.2 := by
        have ascending : ((rest.zipIdx (start + 1)).map (·.2)).Pairwise (· < ·) := by
          rw [List.zipIdx_map_snd]
          exact List.pairwise_lt_range'
        exact List.pairwise_map.mp ascending
      exact List.pairwise_map.mpr ((numbered.filter _).imp fun before => .inr ⟨rfl, before⟩)
    case others =>
      intro pair own later other
      obtain ⟨⟨_, j⟩, _, rfl⟩ := List.mem_map.mp own
      obtain ⟨_, a, _, listed, _⟩ := mem_pairsFrom_iff.mp other
      exact .inl (List.mem_zipIdx listed).1

theorem pairwise_ofPaths (tolerance : Float32) (paths : List Segment) :
    (ofPaths paths tolerance).pairs.Pairwise Precedes :=
  pairwise_pairsFrom tolerance 0 paths

end Plan

end Troupe.Swap
