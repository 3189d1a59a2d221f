import Troupe.Script.Action

/-! # What a script plays

* `Playlist` — the top level of a script, split into a body and how often it is played.
* `expand` — the actions of a list of blocks in the order they are played, loops written
  out.
* `hasActions` — whether that list of actions has a first one, without writing it out.
-/

namespace Troupe.Script

/-! ## The top level -/

/-- The top level of a script as it is played: `body`, `count` times over. -/
structure Playlist where
  count : Nat
  body : List Block
deriving Repr, Inhabited

/-- Splits the top level of a script. The first loop gives the count, one if there is
    none; the blocks that are not loops form the body. Bodies of loops at the top level
    are not played. -/
def Playlist.ofScript (script : List Block) : Playlist where
  count := ((script.find? Block.isLoop).map Block.times).getD 1
  body := script.filter fun block => !block.isLoop

/-! ## Loops written out -/

mutual

def Block.expand : Block → List Action
  | ⟨id, kind, params, body⟩ =>
    if kind = .loop then (List.replicate (params.count "times") (expand body)).flatten
    else (Block.action? ⟨id, kind, params, []⟩).toList

/-- The actions of a list of blocks in the order they are played. -/
def expand : List Block → List Action
  | [] => []
  | block :: rest => block.expand ++ expand rest

end

def Playlist.expand (playlist : Playlist) : List Action :=
  (List.replicate playlist.count (Script.expand playlist.body)).flatten

mutual

/-- Whether a block has an action, looking into loops that run at all. -/
def Block.hasActions : Block → Bool
  | ⟨_, kind, params, body⟩ =>
    match kind with
    | .loop => 0 < params.count "times" && hasActions body
    | .unknown _ => false
    | _ => true

def hasActions : List Block → Bool
  | [] => false
  | block :: rest => block.hasActions || hasActions rest

end

end Troupe.Script
