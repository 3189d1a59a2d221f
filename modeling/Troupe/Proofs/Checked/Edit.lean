import Troupe.Proofs.Checked.Operation
import Troupe.Stage.Editing

/-! # Edits without failures

An edit compares its indices to the length of the script before it makes use of them, and a block
that is taken out of a list is looked up there first.

* `insertBlock`, `moveBlock`, `erase` — the edits that need a place in a list.
* `insertBlock_eq`, `moveBlock_eq`, `erase_eq` — they come out as if nothing could fail.
-/

namespace Troupe.Checked

open Troupe.Script
open Troupe.Stage (Failure)

/-! ## Taking a block out -/

def removeHere (id : BlockId) (script : List Block) : Option (Option (Block × List Block)) :=
  match script.findIdx? (·.id = id) with
  | none => some none
  | some index => (removeAt script index).map some

mutual

def removeInside (id : BlockId) : Block → Option (Option Block × Block)
  | ⟨own, kind, params, body⟩ => do
    let here ← removeHere id body
    let (removed, body) ← match here with
      | some (removed, body) => some (some removed, body)
      | none => removeBelow id body
    return (removed, ⟨own, kind, params, body⟩)

def removeBelow (id : BlockId) : List Block → Option (Option Block × List Block)
  | [] => some (none, [])
  | block :: rest => do
    match ← removeInside id block with
    | (some removed, block) => return (some removed, block :: rest)
    | (none, block) =>
      let (removed, rest) ← removeBelow id rest
      return (removed, block :: rest)

end

def remove (id : BlockId) (script : List Block) : Option (Option Block × List Block) := do
  match ← removeHere id script with
  | some (removed, rest) => return (some removed, rest)
  | none => removeBelow id script

theorem removeHere_eq (id : BlockId) (script : List Block) :
    removeHere id script = some (removeHere? id script) := by
  induction script with
  | nil => rfl
  | cons block rest ih =>
    by_cases same : block.id = id
    · simp [removeHere, removeHere?, List.findIdx?_cons, same, removeAt]
    · -- What is found in the rest is one place further on in the whole list.
      have further : removeHere id (block :: rest) =
          (removeHere id rest).map (Option.map fun found => (found.1, block :: found.2)) := by
        simp only [removeHere, List.findIdx?_cons, same, decide_false]
        cases rest.findIdx? (·.id = id) with
        | none => rfl
        | some index => cases found : rest[index]? <;> simp [removeAt, found]
      rw [further, ih, removeHere?, if_neg same]
      rfl

mutual

theorem removeInside_eq (id : BlockId) : ∀ block : Block,
    removeInside id block = some (block.removeInside id)
  | ⟨own, kind, params, body⟩ => by
    rw [removeInside, Block.removeInside, removeHere_eq, Option.bind_eq_bind, Option.bind_some]
    cases removeHere? id body with
    | some found => rfl
    | none => rw [removeBelow_eq id body]; rfl

theorem removeBelow_eq (id : BlockId) : ∀ script : List Block,
    removeBelow id script = some (Script.removeBelow id script)
  | [] => rfl
  | block :: rest => by
    rw [removeBelow, Script.removeBelow, removeInside_eq id block, Option.bind_eq_bind,
      Option.bind_some]
    rcases block.removeInside id with ⟨_ | removed, block⟩
    · rw [removeBelow_eq id rest]; rfl
    · rfl

end

theorem remove_eq (id : BlockId) (script : List Block) :
    remove id script = some (Script.remove id script) := by
  rw [remove, Script.remove, removeHere_eq, Option.bind_eq_bind, Option.bind_some]
  cases removeHere? id script with
  | some found => rfl
  | none => exact removeBelow_eq id script

/-! ## The edits -/

variable [IdSource]

def editScript {α : Type} (stage : Stage) (id : ActorId)
    (edit : List Block → Option (Except Failure α × List Block)) :
    Option (Except Failure α × Stage) :=
  match stage.actor? id with
  | none => some (.error (.unknownActor id), stage)
  | some actor => do
    let (answer, script) ← edit actor.script
    return (answer, stage.setScript id script)

def insertBlock (stage : Stage) (id : ActorId) (index : Nat) (block : Block) :
    Option (Except Failure BlockId × Stage) :=
  editScript stage id fun script =>
    if script.length < index then some (.error (.indexOutOfRange index script.length), script)
    else do
      let inserted ← insertAt script index block
      return (.ok block.id, inserted)

def moveBlock (stage : Stage) (id : ActorId) (source target : Nat) :
    Option (Except Failure Unit × Stage) :=
  editScript stage id fun script =>
    if script.length ≤ source then some (.error (.indexOutOfRange source script.length), script)
    else if script.length ≤ target then
      some (.error (.indexOutOfRange target script.length), script)
    else do
      let (block, others) ← removeAt script source
      let moved ← insertAt others target block
      return (.ok (), moved)

def erase (stage : Stage) (id : ActorId) (block : BlockId) :
    Option (Except Failure Block × Stage) :=
  editScript stage id fun script => do
    match ← remove block script with
    | (some removed, script) => return (.ok removed, script)
    | (none, script) => return (.error (.unknownBlock id block), script)

theorem editScript_eq {α : Type} {edit : List Block → Option (Except Failure α × List Block)}
    {plain : List Block → Except Failure α × List Block}
    (answers : ∀ script, edit script = some (plain script)) (stage : Stage) (id : ActorId) :
    editScript stage id edit = some (stage.editScript id plain) := by
  unfold editScript Stage.editScript
  cases stage.actor? id with
  | none => rfl
  | some actor => exact congrArg (Option.bind · _) (answers actor.script)

theorem insertBlock_eq (stage : Stage) (id : ActorId) (index : Nat) (block : Block) :
    insertBlock stage id index block = some (stage.insert id index block) := by
  refine editScript_eq (fun script => ?_) stage id
  split
  case isTrue => rfl
  case isFalse inRange => rw [insertAt, if_pos (Nat.le_of_not_lt inRange)]; rfl

theorem moveBlock_eq (stage : Stage) (id : ActorId) (source target : Nat) :
    moveBlock stage id source target = some (stage.moveBlock id source target) := by
  refine editScript_eq (fun script => ?_) stage id
  by_cases beyond : script.length ≤ source
  case pos => rw [if_pos beyond, List.getElem?_eq_none beyond]
  case neg =>
    have inRange := Nat.lt_of_not_le beyond
    rw [if_neg beyond, List.getElem?_eq_getElem inRange]
    dsimp only
    split
    case isTrue => rfl
    case isFalse inside =>
      -- Without the block the list has one place less, and `target` may be its end.
      have place : target ≤ (script.eraseIdx source).length := by
        rw [List.length_eraseIdx_of_lt inRange]
        omega
      rw [removeAt, List.getElem?_eq_getElem inRange, Option.map_some, Option.bind_eq_bind,
        Option.bind_some, insertAt, if_pos place]
      rfl

theorem erase_eq (stage : Stage) (id : ActorId) (block : BlockId) :
    erase stage id block = some (stage.erase id block) := by
  refine editScript_eq (fun script => ?_) stage id
  rw [remove_eq, Option.bind_eq_bind, Option.bind_some]
  rcases Script.remove block script with ⟨_ | removed, script⟩ <;> rfl

end Troupe.Checked
