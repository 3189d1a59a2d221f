import Troupe.Script.Forest

/-! # Where an identity leads

Looking up, changing and taking out walk through a script in three ways of their own, but they
agree on whether there is anything to be found: a block in the script or in a body, however deep.
What is found is the first of these blocks, every block being counted before its body.
-/

namespace Troupe.Script

variable {id : BlockId} {script : List Block}

/-! ## Looking up -/

mutual

theorem Block.find?_eq_find?_preorder (id : BlockId) : ∀ block : Block,
    block.find? id = block.preorder.find? (·.id = id)
  | ⟨own, kind, params, body⟩ => by
    rw [Block.find?, Block.preorder, List.find?_cons, find?_eq_find?_preorder id body]
    by_cases same : own = id <;> simp [same]

theorem find?_eq_find?_preorder (id : BlockId) : ∀ script : List Block,
    find? id script = (preorder script).find? (·.id = id)
  | [] => rfl
  | block :: rest => by
    rw [find?, preorder, List.find?_append, block.find?_eq_find?_preorder id,
      find?_eq_find?_preorder id rest]
    cases block.preorder.find? (·.id = id) <;> rfl

end

theorem Block.find?_eq_none_iff {block : Block} :
    block.find? id = none ↔ block.id ≠ id ∧ Script.find? id block.body = none := by
  obtain ⟨own, kind, params, body⟩ := block
  rw [Block.find?]
  by_cases same : own = id <;> simp [same]

/-- Nothing is found if neither the list itself nor a body has it. -/
theorem find?_eq_none_iff_forall :
    find? id script = none ↔
      (∀ block ∈ script, block.id ≠ id) ∧ ∀ block ∈ script, find? id block.body = none := by
  induction script with
  | nil => simp [find?]
  | cons block rest ih =>
    have nothing : find? id (block :: rest) = none ↔
        block.find? id = none ∧ find? id rest = none := by
      rw [find?]
      cases block.find? id <;> simp
    rw [nothing, ih, Block.find?_eq_none_iff, List.forall_mem_cons, List.forall_mem_cons,
      and_and_and_comm]

/-! ## Visiting -/

section

variable {α : Type}

mutual

theorem Block.visit_of_absent (id : BlockId) (use : Block → α × Block) : ∀ block : Block,
    block.find? id = none → block.visit id use = (none, block)
  | ⟨own, kind, params, body⟩, absent => by
    rw [Block.find?] at absent
    split at absent
    case isTrue => cases absent
    case isFalse differs => rw [Block.visit, if_neg differs, visit_of_absent id use body absent]

/-- Where nothing is found there is nothing to change. -/
theorem visit_of_absent (id : BlockId) (use : Block → α × Block) : ∀ script : List Block,
    find? id script = none → visit id use script = (none, script)
  | [], _ => rfl
  | block :: rest, absent => by
    rw [find?] at absent
    split at absent
    case h_1 => cases absent
    case h_2 nothing =>
      rw [visit, block.visit_of_absent id use nothing, visit_of_absent id use rest absent]

end

end

/-! ## Taking out -/

theorem removeHere?_eq_none_iff :
    removeHere? id script = none ↔ ∀ block ∈ script, block.id ≠ id := by
  induction script with
  | nil => simp [removeHere?]
  | cons block rest ih =>
    rw [removeHere?, List.forall_mem_cons, ← ih]
    by_cases same : block.id = id <;> simp [same]

theorem Block.removeInside_eq (id : BlockId) (block : Block) :
    block.removeInside id =
      ((remove id block.body).1, { block with body := (remove id block.body).2 }) := by
  obtain ⟨own, kind, params, body⟩ := block
  rw [Block.removeInside, remove]

theorem remove_fst_eq_none_iff_below :
    (remove id script).1 = none ↔
      removeHere? id script = none ∧ (removeBelow id script).1 = none := by
  unfold remove
  cases removeHere? id script <;> simp

theorem removeBelow_cons (block : Block) (rest : List Block) :
    removeBelow id (block :: rest) =
      match remove id block.body with
      | (some removed, body) => (some removed, { block with body } :: rest)
      | (none, body) =>
        ((removeBelow id rest).1, { block with body } :: (removeBelow id rest).2) := by
  rw [removeBelow, block.removeInside_eq]
  obtain ⟨_ | removed, body⟩ := remove id block.body <;> rfl

mutual

theorem Block.remove_fst_eq_none_iff (id : BlockId) : ∀ block : Block,
    (remove id block.body).1 = none ↔ Script.find? id block.body = none
  | ⟨own, kind, params, body⟩ => by
    rw [remove_fst_eq_none_iff_below, removeHere?_eq_none_iff, removeBelow_fst_eq_none_iff id body,
      find?_eq_none_iff_forall]

theorem removeBelow_fst_eq_none_iff (id : BlockId) : ∀ script : List Block,
    (removeBelow id script).1 = none ↔ ∀ block ∈ script, find? id block.body = none
  | [] => by simp [removeBelow]
  | block :: rest => by
    have inside := block.remove_fst_eq_none_iff id
    have below := removeBelow_fst_eq_none_iff id rest
    rw [removeBelow_cons, List.forall_mem_cons, ← inside, ← below]
    obtain ⟨_ | removed, body⟩ := remove id block.body <;> simp

end

/-- A block that is looked up in vain cannot be taken out either, and the other way round, though
    the two search a script in different orders. -/
theorem remove_fst_eq_none_iff : (remove id script).1 = none ↔ find? id script = none := by
  rw [remove_fst_eq_none_iff_below, removeHere?_eq_none_iff, removeBelow_fst_eq_none_iff,
    find?_eq_none_iff_forall]

mutual

theorem Block.remove_of_none (id : BlockId) : ∀ block : Block,
    (remove id block.body).1 = none → remove id block.body = (none, block.body)
  | ⟨own, kind, params, body⟩, absent => by
    obtain ⟨nowhere, below⟩ := remove_fst_eq_none_iff_below.mp absent
    rw [remove, nowhere]
    exact removeBelow_of_none id body below

theorem removeBelow_of_none (id : BlockId) : ∀ script : List Block,
    (removeBelow id script).1 = none → removeBelow id script = (none, script)
  | [], _ => rfl
  | block :: rest, absent => by
    have inside := block.remove_of_none id
    have below := removeBelow_of_none id rest
    rw [removeBelow_cons] at absent ⊢
    generalize remove id block.body = result at *
    obtain ⟨_ | removed, body⟩ := result
    · cases inside rfl
      rw [below absent]
      cases block
      rfl
    · cases absent

end

theorem removeBelow_cons_of_none {block : Block} (absent : (remove id block.body).1 = none)
    (rest : List Block) :
    removeBelow id (block :: rest) =
      ((removeBelow id rest).1, block :: (removeBelow id rest).2) := by
  rw [removeBelow_cons, block.remove_of_none id absent]
  cases block
  rfl

/-- A search in vain leaves the script as it was. -/
theorem remove_of_absent (absent : find? id script = none) :
    remove id script = (none, script) := by
  obtain ⟨nowhere, below⟩ := remove_fst_eq_none_iff_below.mp (remove_fst_eq_none_iff.mpr absent)
  rw [remove, nowhere]
  exact removeBelow_of_none id script below

end Troupe.Script
