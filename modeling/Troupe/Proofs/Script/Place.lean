import Troupe.Proofs.Script.Forest

/-! # Places in a script

A place is a script with a gap in one of its lists, at the top level or in a body. A block that is
looked up, changed or taken out stands at a place: what is around it does not depend on what fills
the gap, so every other block keeps its body, the blocks that it is inside of, and its order among
the blocks of its list.

* `Place`, `Place.fill` — a script with a gap, and the gap filled.
* `headers`, `lineages` — all blocks of a script, each before those of its body.
* `find?_eq_some_iff_place` — looking up leads to the first place of all.
* `visit_fill` — a visit leads to the same place.
* `exists_place_of_remove` — taking out leaves a gap.
-/

namespace Troupe.Script

/-! ## Blocks without their bodies -/

/-- What a block is, apart from its body. -/
structure Header where
  id : BlockId
  kind : Kind
  params : Params

def Block.header (block : Block) : Header :=
  ⟨block.id, block.kind, block.params⟩

def Header.around (header : Header) (body : List Block) : Block :=
  ⟨header.id, header.kind, header.params, body⟩

@[simp] theorem Header.header_around (header : Header) (body : List Block) :
    (header.around body).header = header := rfl

@[simp] theorem Header.id_around (header : Header) (body : List Block) :
    (header.around body).id = header.id := rfl

@[simp] theorem Header.body_around (header : Header) (body : List Block) :
    (header.around body).body = body := rfl

@[simp] theorem Block.around_header (block : Block) : block.header.around block.body = block := by
  cases block
  rfl

/-- The headers of all blocks, each before those of its body. -/
def headers (script : List Block) : List Header :=
  (preorder script).map Block.header

@[simp] theorem headers_nil : headers [] = [] := rfl

@[simp] theorem headers_cons (block : Block) (rest : List Block) :
    headers (block :: rest) = block.header :: (headers block.body ++ headers rest) := by
  obtain ⟨id, kind, params, body⟩ := block
  simp [headers, preorder, Block.preorder]

@[simp] theorem headers_append (first second : List Block) :
    headers (first ++ second) = headers first ++ headers second := by
  induction first with
  | nil => rfl
  | cons block rest ih => simp [ih]

mutual

def Block.lineages (above : List Header) : Block → List (List Header)
  | ⟨id, kind, params, body⟩ =>
    (⟨id, kind, params⟩ :: above) :: lineages (⟨id, kind, params⟩ :: above) body

/-- All blocks, each before those of its body: the header of a block, followed by the headers of
    those that it is inside of, from the innermost on. -/
def lineages (above : List Header) : List Block → List (List Header)
  | [] => []
  | block :: rest => block.lineages above ++ lineages above rest

end

theorem Block.lineages_eq (above : List Header) (block : Block) :
    block.lineages above =
      (block.header :: above) :: Script.lineages (block.header :: above) block.body := by
  obtain ⟨id, kind, params, body⟩ := block
  rfl

theorem lineages_append (above : List Header) (first second : List Block) :
    lineages above (first ++ second) = lineages above first ++ lineages above second := by
  induction first with
  | nil => rfl
  | cons block rest ih => simp [lineages, ih]

/-! ## Places -/

/-- A gap in a script: between two blocks of the list itself, or in the body of one of them. -/
inductive Place where
  | here (before after : List Block)
  | inside (before : List Block) (holder : Header) (after : List Block) (place : Place)

namespace Place

def fill : Place → List Block → List Block
  | here before after, blocks => before ++ blocks ++ after
  | inside before holder after place, blocks =>
    before ++ holder.around (place.fill blocks) :: after

/-- The headers of the blocks that come before the gap. -/
def leading : Place → List Header
  | here before _ => headers before
  | inside before holder _ place => headers before ++ holder :: place.leading

/-- The headers of the blocks that come after the gap. -/
def trailing : Place → List Header
  | here _ after => headers after
  | inside _ _ after place => place.trailing ++ headers after

/-- The headers of the blocks that the gap is inside of, from the innermost on. -/
def above : Place → List Header
  | here _ _ => []
  | inside _ holder _ place => place.above ++ [holder]

theorem headers_fill (place : Place) (blocks : List Block) :
    headers (place.fill blocks) = place.leading ++ headers blocks ++ place.trailing := by
  induction place with
  | here before after => simp [fill, leading, trailing]
  | inside before holder after place ih => simp [fill, leading, trailing, ih]

/-- Whatever fills the gap, the other blocks are inside of the same blocks, in the same order. -/
theorem exists_lineages_fill (place : Place) (around : List Header) :
    ∃ before after : List (List Header), ∀ blocks,
      lineages around (place.fill blocks) =
        before ++ lineages (place.above ++ around) blocks ++ after := by
  induction place generalizing around with
  | here before after =>
    refine ⟨lineages around before, lineages around after, fun blocks => ?_⟩
    simp [fill, above, lineages_append]
  | inside before holder after place ih =>
    obtain ⟨ahead, behind, split⟩ := ih (holder :: around)
    refine ⟨lineages around before ++ (holder :: around) :: ahead,
      behind ++ lineages around after, fun blocks => ?_⟩
    simp [fill, above, lineages_append, lineages, Block.lineages_eq, split]

/-- The place with one more block in front of all others. -/
def behind (block : Block) : Place → Place
  | here before after => here (block :: before) after
  | inside before holder after place => inside (block :: before) holder after place

theorem fill_behind (block : Block) (place : Place) (blocks : List Block) :
    (place.behind block).fill blocks = block :: place.fill blocks := by
  cases place <;> rfl

theorem leading_behind (block : Block) (place : Place) :
    (place.behind block).leading = headers [block] ++ place.leading := by
  cases place <;> simp [behind, leading]

/-- No block before the gap has the identity. -/
def IsFirst (id : BlockId) (place : Place) : Prop :=
  ∀ header ∈ place.leading, header.id ≠ id

end Place

variable {id : BlockId} {script before after : List Block} {block removed : Block} {place : Place}

/-! ## Looking up -/

theorem find?_eq_none_iff_headers :
    find? id script = none ↔ ∀ header ∈ headers script, header.id ≠ id := by
  simp [find?_eq_find?_preorder, headers, Block.header, List.find?_eq_none]

theorem id_of_find? (found : find? id script = some block) : block.id = id := by
  rw [find?_eq_find?_preorder] at found
  simpa using List.find?_some found

theorem preorder_append (first second : List Block) :
    preorder (first ++ second) = preorder first ++ preorder second := by
  induction first with
  | nil => rfl
  | cons block rest ih => simp [preorder, ih]

theorem find?_append (first second : List Block) :
    find? id (first ++ second) = (find? id first).or (find? id second) := by
  simp [find?_eq_find?_preorder, preorder_append, List.find?_append]

theorem find?_cons (block : Block) (rest : List Block) :
    find? id (block :: rest) = (block.find? id).or (find? id rest) := by
  rw [find?]
  cases block.find? id <;> rfl

theorem Block.find?_of_id (own : block.id = id) : block.find? id = some block := by
  obtain ⟨_, kind, params, body⟩ := block
  rw [Block.find?, if_pos own]

theorem Block.find?_of_ne (differs : block.id ≠ id) :
    block.find? id = Script.find? id block.body := by
  obtain ⟨_, kind, params, body⟩ := block
  rw [Block.find?, if_neg differs]

theorem Place.isFirst_here : (here before after).IsFirst id ↔ find? id before = none :=
  find?_eq_none_iff_headers.symm

theorem Place.isFirst_inside {holder : Header} :
    (inside before holder after place).IsFirst id ↔
      find? id before = none ∧ holder.id ≠ id ∧ place.IsFirst id := by
  simp only [IsFirst, leading, List.forall_mem_append, List.forall_mem_cons,
    find?_eq_none_iff_headers]

theorem find?_fill (first : place.IsFirst id) (own : block.id = id) :
    find? id (place.fill [block]) = some block := by
  induction place with
  | here before after =>
    rw [Place.isFirst_here] at first
    simp [Place.fill, find?_append, find?_cons, first, Block.find?_of_id own]
  | inside before holder after place ih =>
    obtain ⟨none, differs, first⟩ := Place.isFirst_inside.mp first
    have holds : (holder.around (place.fill [block])).find? id = some block :=
      (Block.find?_of_ne differs).trans (ih first)
    simp [Place.fill, find?_append, find?_cons, none, holds]

mutual

theorem Block.exists_place_of_find? (id : BlockId) : ∀ {block found : Block},
    block.id ≠ id → block.find? id = some found →
      ∃ place : Place, block.body = place.fill [found] ∧ place.IsFirst id
  | ⟨_, _, _, _⟩, _, differs, finds =>
    exists_place_of_find? id (Block.find?_of_ne differs ▸ finds)

theorem exists_place_of_find? (id : BlockId) : ∀ {script : List Block} {found : Block},
    find? id script = some found →
      ∃ place : Place, script = place.fill [found] ∧ place.IsFirst id
  | [], found, finds => nomatch finds
  | block :: rest, found, finds => by
    by_cases own : block.id = id
    · rw [find?_cons, Block.find?_of_id own, Option.some_or, Option.some.injEq] at finds
      exact ⟨.here [] rest, by simp [Place.fill, finds], by simp [Place.IsFirst, Place.leading]⟩
    · cases inside : block.find? id with
      | some other =>
        rw [find?_cons, inside, Option.some_or, Option.some.injEq] at finds
        obtain ⟨place, fills, first⟩ := block.exists_place_of_find? id own (finds ▸ inside)
        refine ⟨.inside [] block.header rest place, ?_, Place.isFirst_inside.mpr ⟨rfl, own, first⟩⟩
        simp [Place.fill, ← fills]
      | none =>
        rw [find?_cons, inside, Option.none_or] at finds
        obtain ⟨place, fills, first⟩ := exists_place_of_find? id finds
        refine ⟨place.behind block, by rw [place.fill_behind, ← fills], ?_⟩
        have absent := find?_eq_none_iff_headers.mp
          (by rw [find?_cons, inside]; rfl : find? id [block] = none)
        rw [Place.IsFirst, place.leading_behind, List.forall_mem_append]
        exact ⟨absent, first⟩

end

/-- The block that is looked up stands at the first place that has the identity. -/
theorem find?_eq_some_iff_place :
    find? id script = some block ↔
      ∃ place : Place, script = place.fill [block] ∧ block.id = id ∧ place.IsFirst id := by
  constructor
  · intro found
    obtain ⟨place, fills, first⟩ := exists_place_of_find? id found
    exact ⟨place, fills, id_of_find? found, first⟩
  · rintro ⟨place, rfl, own, first⟩
    exact find?_fill first own

/-! ## Visiting -/

section

variable {α : Type} {use : Block → α × Block}

theorem Block.visit_of_id (own : block.id = id) :
    block.visit id use = (some (use block).1, (use block).2) := by
  obtain ⟨_, kind, params, body⟩ := block
  rw [Block.visit, if_pos own]

theorem Block.visit_around {holder : Header} (differs : holder.id ≠ id) (body : List Block) :
    (holder.around body).visit id use =
      ((Script.visit id use body).1, holder.around (Script.visit id use body).2) := by
  rw [Header.around, Block.visit, if_neg differs]
  rfl

theorem visit_append_of_absent (absent : find? id before = none) :
    visit id use (before ++ after) =
      ((visit id use after).1, before ++ (visit id use after).2) := by
  induction before with
  | nil => rfl
  | cons block rest ih =>
    rw [find?_cons, Option.or_eq_none_iff] at absent
    rw [List.cons_append, visit, block.visit_of_absent id use absent.1, ih absent.2]
    rfl

/-- A visit leads to the place that looking up leads to. -/
theorem visit_fill (use : Block → α × Block) (first : place.IsFirst id) (own : block.id = id) :
    visit id use (place.fill [block]) = (some (use block).1, place.fill [(use block).2]) := by
  induction place with
  | here before after =>
    rw [Place.isFirst_here] at first
    simp only [Place.fill, List.append_assoc, visit_append_of_absent first, List.cons_append,
      List.nil_append, visit, Block.visit_of_id own]
  | inside before holder after place ih =>
    obtain ⟨none, differs, first⟩ := Place.isFirst_inside.mp first
    simp only [Place.fill, visit_append_of_absent none, visit, Block.visit_around differs, ih first]

/-- The block that is handed to the use is the one that is looked up. -/
theorem visit_answer (use : Block → α × Block) (script : List Block) :
    (visit id use script).1 = (find? id script).map fun block => (use block).1 := by
  cases found : find? id script with
  | none => rw [visit_of_absent id use script found, Option.map_none]
  | some block =>
    obtain ⟨place, rfl, own, first⟩ := find?_eq_some_iff_place.mp found
    rw [visit_fill use first own, Option.map_some]

/-- A use that leaves the block as it was leaves the script as it was. -/
theorem visit_of_found (found : find? id script = some block) (same : (use block).2 = block) :
    visit id use script = (some (use block).1, script) := by
  obtain ⟨place, rfl, own, first⟩ := find?_eq_some_iff_place.mp found
  rw [visit_fill use first own, same]

end

/-! ## Taking out -/

theorem exists_place_of_removeHere? {rest : List Block}
    (removes : removeHere? id script = some (removed, rest)) :
    ∃ place : Place, script = place.fill [removed] ∧ rest = place.fill [] ∧ removed.id = id := by
  induction script generalizing rest with
  | nil => cases removes
  | cons block others ih =>
    by_cases own : block.id = id
    · rw [removeHere?, if_pos own] at removes
      cases removes
      exact ⟨.here [] others, rfl, rfl, own⟩
    · rw [removeHere?, if_neg own, Option.map_eq_some_iff] at removes
      obtain ⟨⟨_, kept⟩, removes, same⟩ := removes
      cases same
      obtain ⟨place, fills, leaves, own⟩ := ih removes
      exact ⟨place.behind block, by rw [place.fill_behind, fills],
        by rw [place.fill_behind, leaves], own⟩

/-- Taking out of a list or else of the bodies below it. -/
theorem remove_cases {rest : List Block} (removes : remove id script = (some removed, rest)) :
    removeHere? id script = some (removed, rest) ∨
      removeHere? id script = none ∧ removeBelow id script = (some removed, rest) := by
  unfold remove at removes
  split at removes
  case h_1 here =>
    cases removes
    exact .inl here
  case h_2 none => exact .inr ⟨none, removes⟩

mutual

theorem Block.exists_place_of_remove (id : BlockId) :
    ∀ {block removed : Block} {body : List Block}, remove id block.body = (some removed, body) →
      ∃ place : Place, block.body = place.fill [removed] ∧ body = place.fill [] ∧ removed.id = id
  | ⟨_, _, _, _⟩, _, _, removes => by
    rcases remove_cases removes with here | ⟨_, below⟩
    · exact exists_place_of_removeHere? here
    · exact exists_place_of_removeBelow id below

theorem exists_place_of_removeBelow (id : BlockId) :
    ∀ {script rest : List Block} {removed : Block}, removeBelow id script = (some removed, rest) →
      ∃ place : Place, script = place.fill [removed] ∧ rest = place.fill [] ∧ removed.id = id
  | [], _, _, removes => nomatch removes
  | block :: others, rest, removed, removes => by
    cases taken : (remove id block.body).1 with
    | some found =>
      have takes : remove id block.body = (some found, (remove id block.body).2) :=
        Prod.ext taken rfl
      rw [removeBelow_cons, takes] at removes
      cases removes
      obtain ⟨place, fills, leaves, own⟩ := block.exists_place_of_remove id takes
      refine ⟨.inside [] block.header others place, ?_, ?_, own⟩
      · simp [Place.fill, ← fills]
      · simp [Place.fill, ← leaves, Header.around, Block.header]
    | none =>
      rw [removeBelow_cons_of_none taken] at removes
      obtain ⟨found, rfl⟩ := Prod.mk.inj removes
      have takes : removeBelow id others = (some removed, (removeBelow id others).2) :=
        Prod.ext found rfl
      obtain ⟨place, fills, leaves, own⟩ := exists_place_of_removeBelow id takes
      exact ⟨place.behind block, by rw [place.fill_behind, fills],
        by rw [place.fill_behind, leaves], own⟩

end

/-- Taking out leaves a gap where a block with the identity was, and nothing else changes. -/
theorem exists_place_of_remove {rest : List Block}
    (removes : remove id script = (some removed, rest)) :
    ∃ place : Place, script = place.fill [removed] ∧ rest = place.fill [] ∧ removed.id = id := by
  rcases remove_cases removes with here | ⟨_, below⟩
  · exact exists_place_of_removeHere? here
  · exact exists_place_of_removeBelow id below

end Troupe.Script
