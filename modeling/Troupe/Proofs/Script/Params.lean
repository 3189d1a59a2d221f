import Troupe.Script.Param

/-! # Parameters by name

Parameters are read by name. Setting one changes what is read under its name and nothing else, and
so does merging, for every name that is given.

* `get?_set`, `get?_merge` — what is read afterwards.
-/

namespace Troupe.Script.Params

variable {params partials : Params} {name key : String} {value : Param}
  {entries : List (String × Param)}

/-! ## Setting -/

theorem find?_insertEntry :
    (insertEntry name value entries).find? (·.1 = key) =
      if name = key then some (name, value) else entries.find? (·.1 = key) := by
  induction entries with
  | nil => by_cases own : name = key <;> simp [insertEntry, own]
  | cons entry rest ih =>
    by_cases own : name = key
    · subst own
      rw [if_pos rfl, insertEntry]
      split
      case isTrue => simp
      case isFalse =>
        split
        case isTrue => simp
        case isFalse differs => simpa [Ne.symm differs] using ih
    · rw [if_neg own] at ih ⊢
      rw [insertEntry]
      split
      case isTrue => simp [own]
      case isFalse =>
        split
        case isTrue same => simp [own, ← same]
        case isFalse => simp only [List.find?_cons, ih]

theorem get?_set :
    (params.set name value).get? key = if name = key then some value else params.get? key := by
  simp only [get?, set, find?_insertEntry]
  split <;> rfl

/-! ## Merging -/

/-- Every name that is given reads what was given for it, and every other one what it read. -/
theorem get?_merge :
    (params.merge partials).get? key = (partials.get? key).or (params.get? key) := by
  obtain ⟨entries, ordered⟩ := partials
  simp only [Params.merge]
  induction entries generalizing params with
  | nil => rfl
  | cons entry rest ih =>
    obtain ⟨least, others⟩ := List.pairwise_cons.mp ordered
    rw [List.foldl_cons, ih others, get?_set]
    by_cases own : entry.1 = key
    · -- No entry that is put later has the name.
      have once : rest.find? (·.1 = key) = none := by
        rw [List.find?_eq_none]
        intro other later
        have above := least other later
        rw [own] at above
        simpa using fun same : other.1 = key => String.lt_irrefl _ (same ▸ above)
      simp [get?, own, once]
    · simp [get?, own]

end Troupe.Script.Params
