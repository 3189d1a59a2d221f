import Troupe.Script.Block

/-! # Editing a script by identity

A script is a forest: blocks with stored bodies, to any depth. An identity can occur more
than once, because copies keep theirs. A script is edited in place, so an edit that comes to
nothing gives back a script as well.

* `find?` — the first block with an identity, each block before its body.
* `visit` — hands that block to a use, which may change it.
* `remove` — takes a block out: one of the list itself if there is one, and only then
  one from a body, the bodies being searched in order by the same rule.
* `preorder` — all blocks, each before those of its body.
-/

namespace Troupe.Script

/-! ## Looking up and changing -/

mutual

def Block.find? (id : BlockId) : Block → Option Block
  | ⟨own, kind, params, body⟩ =>
    if own = id then some ⟨own, kind, params, body⟩ else find? id body

/-- The first block with an identity, each block before its body. -/
def find? (id : BlockId) : List Block → Option Block
  | [] => none
  | block :: rest =>
    match block.find? id with
    | some found => some found
    | none => find? id rest

end

section

variable {α : Type}

mutual

def Block.visit (id : BlockId) (use : Block → α × Block) : Block → Option α × Block
  | ⟨own, kind, params, body⟩ =>
    if own = id then
      let (answer, block) := use ⟨own, kind, params, body⟩
      (some answer, block)
    else
      let (answer, body) := visit id use body
      (answer, ⟨own, kind, params, body⟩)

/-- What a use of the block that `find?` returns answers, and the script with what the use
    makes of the block. -/
def visit (id : BlockId) (use : Block → α × Block) : List Block → Option α × List Block
  | [] => (none, [])
  | block :: rest =>
    match block.visit id use with
    | (some answer, block) => (some answer, block :: rest)
    | (none, block) =>
      let (answer, rest) := visit id use rest
      (answer, block :: rest)

end

end

/-! ## Taking out -/

/-- The first block of the list itself with an identity, and the list without it. -/
def removeHere? (id : BlockId) : List Block → Option (Block × List Block)
  | [] => none
  | block :: rest =>
    if block.id = id then some (block, rest)
    else (removeHere? id rest).map fun (removed, rest) => (removed, block :: rest)

mutual

def Block.removeInside (id : BlockId) : Block → Option Block × Block
  | ⟨own, kind, params, body⟩ =>
    let (removed, body) :=
      match removeHere? id body with
      | some (removed, body) => (some removed, body)
      | none => removeBelow id body
    (removed, ⟨own, kind, params, body⟩)

/-- A block taken out of the first body that has one with the identity, and the list
    afterwards. -/
def removeBelow (id : BlockId) : List Block → Option Block × List Block
  | [] => (none, [])
  | block :: rest =>
    match block.removeInside id with
    | (some removed, block) => (some removed, block :: rest)
    | (none, block) =>
      let (removed, rest) := removeBelow id rest
      (removed, block :: rest)

end

/-- A block with an identity, with all that it holds, if there is one, and the script
    afterwards. -/
def remove (id : BlockId) (script : List Block) : Option Block × List Block :=
  match removeHere? id script with
  | some (removed, rest) => (some removed, rest)
  | none => removeBelow id script

/-! ## View -/

mutual

/-- A block and all blocks of its body, the block first. -/
def Block.preorder : Block → List Block
  | ⟨id, kind, params, body⟩ => ⟨id, kind, params, body⟩ :: preorder body

/-- All blocks of a script, each before those of its body. -/
def preorder : List Block → List Block
  | [] => []
  | block :: rest => block.preorder ++ preorder rest

end

end Troupe.Script
