/-! # Choreographies

Which swaps of scripts a run makes: when it starts, for sprites whose paths cross, and
while it goes on, for sprites that come close to each other.
-/

namespace Troupe.Swap

inductive Choreography where
  /-- None: every sprite plays its own script. -/
  | off
  /-- At the start, for sprites whose paths will cross. -/
  | predictive
  /-- During the run, for sprites that come close. -/
  | proximity
  /-- Both. -/
  | combined
deriving Repr, DecidableEq, Inhabited

namespace Choreography

/-- All choreographies, in the order in which they are listed to users. -/
def all : List Choreography :=
  [.off, .predictive, .proximity, .combined]

def label : Choreography → String
  | .off => "Off"
  | .predictive => "Predictive"
  | .proximity => "Proximity"
  | .combined => "Combined"

def swapsCrossing : Choreography → Bool
  | .predictive | .combined => true
  | .off | .proximity => false

def swapsClose : Choreography → Bool
  | .proximity | .combined => true
  | .off | .predictive => false

def folded (text : String) : List Char :=
  text.toList.map Char.toLower

/-- The choreography of a name, whatever its ASCII letters' case. -/
def ofName? (name : String) : Option Choreography :=
  all.find? fun choreography => folded choreography.label = folded name

example : all.map (fun choreography => ofName? choreography.label) = all.map some := by
  decide +kernel

def unknownMessage (name : String) : String :=
  "unknown choreography mode '" ++ name ++ "' (expected one of "
    ++ String.intercalate ", " (all.map label) ++ ")"

end Choreography

end Troupe.Swap
