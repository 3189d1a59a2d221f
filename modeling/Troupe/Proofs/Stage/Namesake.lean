import Troupe.Proofs.Stage.Editing

/-! # Blocks with the same identity

A copy of a block keeps its identity, so an identity can occur more than once in a script. Looking
up and changing lead to the first block that has it, every block being counted before its body. But
taking out looks through a whole list before any body, so it can take a later block, one that is
less deep.

* `Place.IsOutermost` — no namesake in a list further out.
* `remove_fill_iff` — when taking out leads to a place that looking up leads to.
* `removes_found_iff` — the same for every script.
* `copiedLoop_removes_copy` — a script in which it does not.
-/

namespace Troupe.Script

variable {id : BlockId} {before after body rest : List Block} {holder : Header}
  {block removed : Block} {place : Place}

/-! ## Taking out of a body -/

theorem removeBelow_append_of_absent (absent : find? id before = none) :
    removeBelow id (before ++ after) =
      ((removeBelow id after).1, before ++ (removeBelow id after).2) := by
  induction before with
  | nil => rfl
  | cons block others ih =>
    rw [find?_cons, Option.or_eq_none_iff, Block.find?_eq_none_iff, ← remove_fst_eq_none_iff]
      at absent
    rw [List.cons_append, removeBelow_cons_of_none absent.1.2, ih absent.2]
    rfl

/-- A body is looked through once its list and the bodies before it have been in vain. -/
theorem remove_of_body (absent : find? id before = none) (differs : holder.id ≠ id)
    (others : ∀ block ∈ after, block.id ≠ id) (removes : remove id body = (some removed, rest)) :
    remove id (before ++ holder.around body :: after) =
      (some removed, before ++ holder.around rest :: after) := by
  have noneHere : removeHere? id (before ++ holder.around body :: after) = none := by
    rw [removeHere?_eq_none_iff, List.forall_mem_append, List.forall_mem_cons]
    exact ⟨(find?_eq_none_iff_forall.mp absent).1, differs, others⟩
  rw [remove, noneHere]
  dsimp only
  rw [removeBelow_append_of_absent absent, removeBelow_cons, Header.body_around, removes]
  rfl

/-- Taking out of a list makes it shorter, and taking out of a body does not. -/
theorem length_of_removeHere? (removes : removeHere? id before = some (removed, rest)) :
    before.length = rest.length + 1 := by
  induction before generalizing rest with
  | nil => cases removes
  | cons block others ih =>
    rw [removeHere?] at removes
    split at removes
    case isTrue =>
      cases removes
      rfl
    case isFalse =>
      obtain ⟨⟨_, kept⟩, here, same⟩ := Option.map_eq_some_iff.mp removes
      cases same
      exact congrArg (· + 1) (ih here)

/-! ## The two searches -/

/-- No list that the gap is inside of a block of has a block with the identity. -/
def Place.IsOutermost (id : BlockId) : Place → Prop
  | here _ _ => True
  | inside before holder after place =>
    (∀ block ∈ before ++ after, block.id ≠ id) ∧ holder.id ≠ id ∧ place.IsOutermost id

theorem remove_here (absent : ∀ block ∈ before, block.id ≠ id) (own : block.id = id) :
    remove id (before ++ block :: after) = (some block, before ++ after) := by
  have here : removeHere? id (before ++ block :: after) = some (block, before ++ after) := by
    induction before with
    | nil => simp [removeHere?, own]
    | cons first others ih =>
      obtain ⟨differs, absent⟩ := List.forall_mem_cons.mp absent
      simp [removeHere?, differs, ih absent]
  rw [remove, here]

/-- The induction is on the lists that the place is inside of, from the outermost on: if one of them
    has a namesake, it gets shorter, and otherwise the search goes on in the body. -/
theorem remove_fill_iff (first : place.IsFirst id) (own : block.id = id) :
    remove id (place.fill [block]) = (some block, place.fill []) ↔ place.IsOutermost id := by
  induction place with
  | here before after =>
    have absent := (find?_eq_none_iff_forall.mp (Place.isFirst_here.mp first)).1
    simp [Place.fill, Place.IsOutermost, remove_here absent own]
  | inside before holder after place ih =>
    obtain ⟨absent, differs, first⟩ := Place.isFirst_inside.mp first
    have unlike := (find?_eq_none_iff_forall.mp absent).1
    obtain ⟨removed, rest, removes⟩ :
        ∃ removed rest, remove id (place.fill [block]) = (some removed, rest) := by
      have found : find? id (place.fill [block]) ≠ none := by simp [find?_fill first own]
      obtain ⟨removed, removes⟩ :=
        Option.ne_none_iff_exists'.mp (mt remove_fst_eq_none_iff.mp found)
      exact ⟨removed, _, Prod.ext removes rfl⟩
    have goesOn (others : ∀ block ∈ after, block.id ≠ id) :=
      remove_of_body absent differs others removes
    constructor
    · intro takes
      -- A removal from this list itself would have made it shorter.
      have none :
          removeHere? id (before ++ holder.around (place.fill [block]) :: after) = none := by
        rcases remove_cases takes with here | ⟨none, _⟩
        · have shorter := length_of_removeHere? here
          simp [Place.fill] at shorter
        · exact none
      rw [removeHere?_eq_none_iff, List.forall_mem_append, List.forall_mem_cons] at none
      obtain ⟨_, _, others⟩ := none
      rw [Place.fill, goesOn others, Prod.mk.injEq, Option.some.injEq] at takes
      obtain ⟨rfl, same⟩ := takes
      refine ⟨List.forall_mem_append.mpr ⟨unlike, others⟩, differs, (ih first).mp ?_⟩
      rw [removes]
      simpa [Place.fill, Header.around] using same
    · rintro ⟨others, _, outermost⟩
      obtain ⟨_, others⟩ := List.forall_mem_append.mp others
      rw [(ih first).mpr outermost, Prod.mk.injEq, Option.some.injEq] at removes
      obtain ⟨rfl, rfl⟩ := removes
      exact goesOn others

/-- Without a namesake after it a block is the outermost of its identity. -/
theorem Place.isOutermost_of_last (first : place.IsFirst id)
    (last : ∀ header ∈ place.trailing, header.id ≠ id) : place.IsOutermost id := by
  induction place with
  | here before after => trivial
  | inside before holder after place ih =>
    obtain ⟨absent, differs, first⟩ := Place.isFirst_inside.mp first
    rw [trailing, List.forall_mem_append, ← find?_eq_none_iff_headers] at last
    refine ⟨List.forall_mem_append.mpr ⟨?_, ?_⟩, differs, ih first last.1⟩
    · exact (find?_eq_none_iff_forall.mp absent).1
    · exact (find?_eq_none_iff_forall.mp last.2).1

/-- The block that is looked up is the one that is changed, and the one that is taken out exactly if
    no list further out has a namesake; so it is if no namesake comes later. -/
theorem removes_found_iff {script : List Block} (found : find? id script = some block) :
    ∃ place : Place, script = place.fill [block] ∧ place.IsFirst id ∧
      (∀ {α : Type} (use : Block → α × Block),
        visit id use script = (some (use block).1, place.fill [(use block).2])) ∧
      (remove id script = (some block, place.fill []) ↔ place.IsOutermost id) ∧
      ((∀ header ∈ place.trailing, header.id ≠ id) → place.IsOutermost id) := by
  obtain ⟨place, rfl, own, first⟩ := find?_eq_some_iff_place.mp found
  exact ⟨place, rfl, first, fun use => visit_fill use first own,
    remove_fill_iff first own, place.isOutermost_of_last first⟩

/-- A turn in the body of a loop, with no namesake after it. -/
theorem repeatedTurn_removes_found :
    let turn : Block := (Block.turn 90 ⟨2⟩).1
    let loop : Block := (Block.loop 3 [turn] ⟨1⟩).1
    find? ⟨2⟩ [loop] = some turn ∧ ∃ place : Place, [loop] = place.fill [turn] ∧
      place.IsFirst ⟨2⟩ ∧ place.IsOutermost ⟨2⟩ ∧
        remove ⟨2⟩ [loop] = (some turn, place.fill []) := by
  intro turn loop
  have found : find? ⟨2⟩ [loop] = some turn := rfl
  obtain ⟨place, fills, first, _, removes, outermost⟩ := removes_found_iff found
  have listed : [loop.header, turn.header] = place.leading ++ turn.header :: place.trailing := by
    have split := place.headers_fill [turn]
    rw [← fills, List.append_assoc] at split
    exact split
  have differs : loop.header ≠ turn.header := fun same =>
    absurd (congrArg Header.id same) (by decide)
  have last : place.trailing = [] := by
    generalize place.leading = leading at listed
    rcases leading with _ | ⟨_, _ | ⟨_, _⟩⟩
    · exact absurd (List.cons.inj listed).1 differs
    · exact (List.cons.inj (List.cons.inj listed).2).2.symm
    · simp at listed
  have outermost : place.IsOutermost ⟨2⟩ := outermost (by simp [last])
  exact ⟨found, place, fills, first, outermost, removes.mpr outermost⟩

end Troupe.Script

namespace Troupe.Stage

open Troupe.Script
open scoped Troupe.IdPool

/-- The loop that got the turn is the one that is found, but it is the copy that is taken out, so
    that the one that was found is found again. -/
theorem copiedLoop_removes_copy :
    Reachable .standard copiedLoop ∧
      ∃ found removed rest, find? ⟨2⟩ (copiedLoop.scriptOf ⟨0, 1⟩) = some found ∧
        Script.remove ⟨2⟩ (copiedLoop.scriptOf ⟨0, 1⟩) = (some removed, rest) ∧
        found.body.length = 1 ∧ removed.body.length = 0 ∧ find? ⟨2⟩ rest = some found :=
  ⟨Reachable.new.afterAll _, _, _, _, rfl, rfl, rfl, rfl, rfl⟩

end Troupe.Stage
