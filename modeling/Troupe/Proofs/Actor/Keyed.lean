import Mathlib.Data.List.Basic
import Troupe.Actor.Id

/-! # Looking up by identity

Entries of a list are looked up by the identity of the actor they belong to. Where no identity
occurs twice, an entry of the list is what the look-up returns for its identity, and a change that
keeps identities can be made before or after looking up.
-/

namespace Troupe

variable {Entry : Type} {key : Entry → ActorId}

theorem find?_eq_some_iff {entries : List Entry} (distinct : (entries.map key).Nodup)
    {id : ActorId} {entry : Entry} :
    entries.find? (fun entry => key entry = id) = some entry ↔
      entry ∈ entries ∧ key entry = id := by
  constructor
  · intro found
    exact ⟨List.mem_of_find?_eq_some found, by simpa using List.find?_some found⟩
  · rintro ⟨member, rfl⟩
    induction entries with
    | nil => cases member
    | cons first rest ih =>
      simp only [List.map_cons, List.nodup_cons] at distinct
      cases member with
      | head => simp
      | tail _ member =>
        have differs : key first ≠ key entry := fun same =>
          distinct.1 (same ▸ List.mem_map_of_mem member)
        rw [List.find?_cons_of_neg (by simpa using differs)]
        exact ih distinct.2 member

theorem exists_of_mem_keys {entries : List Entry} {id : ActorId}
    (member : id ∈ entries.map key) :
    ∃ entry, entries.find? (fun entry => key entry = id) = some entry ∧ key entry = id := by
  cases found : entries.find? (fun entry => key entry = id) with
  | some entry => exact ⟨entry, rfl, by simpa using List.find?_some found⟩
  | none =>
    obtain ⟨entry, present, same⟩ := List.mem_map.mp member
    exact absurd same (by simpa using List.find?_eq_none.mp found entry present)

theorem find?_eq_none_iff {entries : List Entry} {id : ActorId} :
    entries.find? (fun entry => key entry = id) = none ↔ id ∉ entries.map key := by
  simp [List.find?_eq_none]

theorem find?_map_of_key {entries : List Entry} {change : Entry → Entry}
    (keeps : ∀ entry, key (change entry) = key entry) (id : ActorId) :
    (entries.map change).find? (fun entry => key entry = id) =
      (entries.find? fun entry => key entry = id).map change := by
  simp only [List.find?_map, Function.comp_def, keeps]

theorem find?_filter_of_ne {id other : ActorId} (differs : id ≠ other) (entries : List Entry) :
    (entries.filter (key · != other)).find? (fun entry => key entry = id) =
      entries.find? fun entry => key entry = id := by
  rw [List.find?_filter]
  refine congrArg (List.find? · entries) (funext fun entry => ?_)
  by_cases own : key entry = id <;> simp [own, differs]

/-- Entries that are looked up one after the other, in their own order. -/
theorem filterMap_find? {entries : List Entry} (distinct : (entries.map key).Nodup) :
    (entries.map key).filterMap (fun id => entries.find? fun entry => key entry = id) =
      entries := by
  have found : ∀ entry ∈ entries,
      entries.find? (fun other => key other = key entry) = some entry :=
    fun entry member => (find?_eq_some_iff distinct).mpr ⟨member, rfl⟩
  rw [List.filterMap_map]
  calc entries.filterMap (fun entry => entries.find? fun other => key other = key entry)
      = entries.filterMap some := List.filterMap_congr found
    _ = entries := List.filterMap_some

theorem perm_cons_filter {entries : List Entry} {entry : Entry}
    (distinct : (entries.map key).Nodup) (member : entry ∈ entries) :
    (entry :: entries.filter (key · != key entry)).Perm entries := by
  induction entries with
  | nil => cases member
  | cons first rest ih =>
    simp only [List.map_cons, List.nodup_cons] at distinct
    cases member with
    | head =>
      have others : rest.filter (key · != key entry) = rest := by
        rw [List.filter_eq_self]
        intro other present
        have differs : key other ≠ key entry := fun same =>
          distinct.1 (same ▸ List.mem_map_of_mem present)
        simpa using differs
      simp [others]
    | tail _ present =>
      have differs : key first ≠ key entry := fun same =>
        distinct.1 (same ▸ List.mem_map_of_mem present)
      rw [List.filter_cons_of_pos (by simpa using differs)]
      exact (List.Perm.swap _ _ _).trans ((ih distinct.2 present).cons first)

end Troupe
