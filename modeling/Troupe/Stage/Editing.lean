import Troupe.Script.Forest
import Troupe.Stage.Basic

/-! # Editing scripts

Changes to the script of one actor. Each edits a list of blocks in place and answers
something; it is refused when there is no such actor, before anything else is looked at.

* `Stage.editScript` — carries out an edit.
* `Stage.append`, `Stage.insert`, `Stage.moveBlock` — the top level of a script.
* `Stage.appendInside`, `Stage.mergeParams`, `Stage.erase` — any block, by identity.
-/

namespace Troupe.Stage

open Troupe.Script

variable [IdSource]

/-! ## Edits -/

def setScript (stage : Stage) (id : ActorId) (script : List Block) : Stage :=
  stage.modify id fun actor => { actor with script }

/-- What an edit of one actor's script answers, and the stage with the script that it leaves
    behind. -/
def editScript {α : Type} (stage : Stage) (id : ActorId)
    (edit : List Block → Except Failure α × List Block) : Except Failure α × Stage :=
  match stage.actor? id with
  | none => (.error (.unknownActor id), stage)
  | some actor =>
    let (answer, script) := edit actor.script
    (answer, stage.setScript id script)

/-! ## The top level -/

def append (stage : Stage) (id : ActorId) (block : Block) : Except Failure BlockId × Stage :=
  stage.editScript id fun script => (.ok block.id, script ++ [block])

/-- A block put before the one at `index`, or at the end when `index` is the length. -/
def insert (stage : Stage) (id : ActorId) (index : Nat) (block : Block) :
    Except Failure BlockId × Stage :=
  stage.editScript id fun script =>
    if script.length < index then (.error (.indexOutOfRange index script.length), script)
    else (.ok block.id, script.insertIdx index block)

/-- The block at `source` moved so that it ends up at `target`. -/
def moveBlock (stage : Stage) (id : ActorId) (source target : Nat) :
    Except Failure Unit × Stage :=
  stage.editScript id fun script =>
    match script[source]? with
    | none => (.error (.indexOutOfRange source script.length), script)
    | some block =>
      if script.length ≤ target then (.error (.indexOutOfRange target script.length), script)
      else (.ok (), (script.eraseIdx source).insertIdx target block)

/-! ## Any block -/

/-- What a use of the first block with an identity answers, and the stage with what the use
    makes of the block. -/
def visitBlock {α : Type} (stage : Stage) (id : ActorId) (block : BlockId)
    (use : Block → Except Failure α × Block) : Except Failure α × Stage :=
  stage.editScript id fun script =>
    match visit block use script with
    | (some answer, script) => (answer, script)
    | (none, script) => (.error (.unknownBlock id block), script)

def addToBody (block loop : Block) : Except Failure BlockId × Block :=
  if loop.isLoop then (.ok block.id, { loop with body := loop.body ++ [block] })
  else (.error (.notALoop loop.id), loop)

/-- A block put at the end of the body of a loop. -/
def appendInside (stage : Stage) (id : ActorId) (parent : BlockId) (block : Block) :
    Except Failure BlockId × Stage :=
  stage.visitBlock id parent (addToBody block)

def withParams (partials : Params) (block : Block) : Block :=
  { block with params := block.params.merge partials }

/-- Some parameters of a block replaced; the others stay. -/
def mergeParams (stage : Stage) (id : ActorId) (block : BlockId) (partials : Params) :
    Except Failure Unit × Stage :=
  stage.visitBlock id block fun found => (.ok (), withParams partials found)

/-- A block taken out of a script, wherever in it the block is. -/
def erase (stage : Stage) (id : ActorId) (block : BlockId) : Except Failure Block × Stage :=
  stage.editScript id fun script =>
    match Script.remove block script with
    | (some removed, script) => (.ok removed, script)
    | (none, script) => (.error (.unknownBlock id block), script)

end Troupe.Stage
