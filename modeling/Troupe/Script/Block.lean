import Troupe.Script.Param

/-! # Blocks

A script is a list of blocks, and a loop holds a list of blocks of its own.

* `BlockId`, `Supply`, `Naming` — identities, handed out once each in the order in which
  blocks are made.
* `Kind` — what a block does.
* `Block` — one node of a script, and its constructors.
-/

namespace Troupe.Script

/-! ## Identities -/

structure BlockId where
  val : Nat
deriving Repr, DecidableEq, Inhabited

def BlockId.label (id : BlockId) : String :=
  "#" ++ toString id.val

/-- The identities not handed out yet: those from `next` on. -/
structure Supply where
  next : Nat
deriving Repr, DecidableEq, Inhabited

abbrev Naming := StateM Supply

def freshId : Naming BlockId := fun supply =>
  (⟨supply.next⟩, ⟨supply.next + 1⟩)

/-! ## Kinds -/

/-- What a block does. A name that no rule knows is kept and does nothing. -/
inductive Kind where
  | move
  | turn
  | goTo
  | loop
  | say
  | think
  | unknown (tag : String)
deriving Repr, DecidableEq, Inhabited

def defaultSpeech : String := "Hello!"

def defaultThought : String := "Hmm..."

/-- How many seconds a bubble stays when its block does not tell. -/
def defaultSeconds : Float32 := 2

namespace Kind

def label : Kind → String
  | .move => "Move"
  | .turn => "Turn"
  | .goTo => "Go to"
  | .loop => "Repeat"
  | .say => "Say"
  | .think => "Think"
  | .unknown tag => tag

/-- The parameters that a block of this kind has when it leaves the palette. -/
def defaultParams : Kind → Params
  | .move => Params.empty.set "steps" (.ofInt 0)
  | .turn => Params.empty.set "degrees" (.ofInt 0)
  | .goTo => (Params.empty.set "x" (.ofInt 0)).set "y" (.ofInt 0)
  | .loop => Params.empty.set "times" (.ofInt 0)
  | .say =>
    (Params.empty.set "message" (.text defaultSpeech)).set "seconds" (.ofSingle defaultSeconds)
  | .think =>
    (Params.empty.set "message" (.text defaultThought)).set "seconds" (.ofSingle defaultSeconds)
  | .unknown _ => Params.empty

end Kind

/-! ## Blocks -/

/-- One node of a script. Blocks of every kind can store a `body`; only loops run it. -/
structure Block where
  id : BlockId
  kind : Kind
  params : Params
  body : List Block
deriving Repr, Inhabited

namespace Block

def isLoop (block : Block) : Bool :=
  block.kind = .loop

/-- The blocks that a loop runs; none for any other kind. -/
def children (block : Block) : List Block :=
  if block.isLoop then block.body else []

def times (block : Block) : Nat :=
  block.params.count "times"

def new (kind : Kind) (params : Params) : Naming Block := do
  let id ← freshId
  return ⟨id, kind, params, []⟩

def ofPalette (kind : Kind) : Naming Block :=
  new kind kind.defaultParams

def move (steps : Float32) : Naming Block :=
  new .move (Params.empty.set "steps" (.ofSingle steps))

def turn (degrees : Float32) : Naming Block :=
  new .turn (Params.empty.set "degrees" (.ofSingle degrees))

def goTo (x y : Float32) : Naming Block :=
  new .goTo ((Params.empty.set "x" (.ofSingle x)).set "y" (.ofSingle y))

def loop (times : Nat) (body : List Block) : Naming Block := do
  let block ← new .loop (Params.empty.set "times" (.ofInt times))
  return { block with body }

def bubbleParams (message : String) (seconds : Float32) : Params :=
  (Params.empty.set "message" (.text message)).set "seconds" (.ofSingle seconds)

def say (message : String) (seconds : Float32) : Naming Block :=
  new .say (bubbleParams message seconds)

def think (message : String) (seconds : Float32) : Naming Block :=
  new .think (bubbleParams message seconds)

end Block

end Troupe.Script
