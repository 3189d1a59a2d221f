import Troupe.Proofs.Checked.Operation
import Troupe.Proofs.Geometry.Bounds
import Troupe.Script.Action

/-! # Effects without failures

Positions, headings and the numbers of a script are moved between limits. The limits of a rectangle
are zero and a number that is made not to be negative first, however the rectangle came about, and
all others are the ends of the finite range.
-/

namespace Troupe.Checked

open Troupe.Geometry
open Troupe.Script
open Troupe.Number (Trigonometry largest32 largest64 larger narrow)

/-! ## The rectangle -/

def clampInto (bounds : Bounds) (p : Point) : Option Point := do
  let x ← clamp 0 (larger bounds.max.x 0) p.x
  let y ← clamp 0 (larger bounds.max.y 0) p.y
  return ⟨x, y⟩

theorem zero_le_larger_zero (x : Float32) : 0 ≤ larger x 0 := by
  rw [Number.larger_zero]
  split
  case isTrue positive => exact Number.le_of_lt positive
  case isFalse => decide

theorem clampInto_eq (bounds : Bounds) (p : Point) :
    clampInto bounds p = some (bounds.clamp p) := by
  simp only [clampInto, clamp, if_pos (zero_le_larger_zero _)]
  rfl

def advanced [Trigonometry] (pose : Pose) (steps : Float32) (bounds : Bounds) : Option Point :=
  clampInto bounds (pose.position + pose.heading.scale steps)

theorem advanced_eq [Trigonometry] (pose : Pose) (steps : Float32) (bounds : Bounds) :
    advanced pose steps bounds = some (pose.advanced steps bounds) :=
  clampInto_eq bounds _

/-! ## The numbers of a block -/

def saturate (x : Float) : Option Float32 :=
  (clamp (-largest64) largest64 x).map narrow

theorem saturate_eq (x : Float) : saturate x = some (Number.saturate x) := by
  have ordered : -largest64 ≤ largest64 := by decide +kernel
  rw [saturate, clamp, if_pos ordered]
  rfl

def amount (params : Params) (name : String) : Option Float32 :=
  match params.number? name with
  | some value => saturate value
  | none => some 0

theorem amount_eq (params : Params) (name : String) :
    amount params name = some (params.amount name) := by
  unfold amount Params.amount
  cases params.number? name with
  | some value => exact saturate_eq value
  | none => rfl

def seconds (params : Params) (name : String) (fallback : Float32) : Option Float32 :=
  match params.number? name with
  | some value => (saturate value).map (larger · 0)
  | none => some fallback

theorem seconds_eq (params : Params) (name : String) (fallback : Float32) :
    seconds params name fallback = some (params.seconds name fallback) := by
  unfold seconds Params.seconds
  cases params.number? name with
  | some value => exact congrArg (Option.map (larger · 0)) (saturate_eq value)
  | none => rfl

/-! ## Actions and their effects -/

def speak (params : Params) (fallback : String) (bubble : Bubble) : Option Action := do
  let seconds ← seconds params "seconds" defaultSeconds
  return .show ⟨params.text "message" fallback, bubble⟩ seconds

/-- The action of a block, if it has one of its own. -/
def action (block : Block) : Option (Option Action) :=
  let params := block.params
  match block.kind with
  | .move => do
    let steps ← amount params "steps"
    return some (.walk steps)
  | .turn => do
    let degrees ← amount params "degrees"
    return some (.rotate degrees)
  | .goTo => do
    let x ← amount params "x"
    let y ← amount params "y"
    return some (.walkTo ⟨x, y⟩)
  | .say => (speak params defaultSpeech .speech).map some
  | .think => (speak params defaultThought .thought).map some
  | .loop | .unknown _ => some none

theorem action_eq (block : Block) : action block = some block.action? := by
  obtain ⟨id, kind, params, body⟩ := block
  cases kind <;> simp only [action, speak, amount_eq, seconds_eq] <;> rfl

def effect [Trigonometry] (action : Action) (pose : Pose) (bounds : Bounds) : Option Effect :=
  match action with
  | .walk steps => do
    let finish ← advanced pose steps bounds
    return .move pose.position finish
  | .rotate degrees => do
    let finish ← clamp (-largest32) largest32 (pose.rotation + degrees)
    return .turn pose.rotation finish
  | .walkTo target => do
    let finish ← clampInto bounds target
    return .move pose.position finish
  | .show message seconds => some (.show message seconds)

theorem effect_eq [Trigonometry] (action : Action) (pose : Pose) (bounds : Bounds) :
    effect action pose bounds = some (action.effect pose bounds) := by
  have ordered : -largest32 ≤ largest32 := by decide +kernel
  cases action with
  | walk steps => rw [effect, advanced_eq]; rfl
  | rotate degrees => rw [effect, clamp, if_pos ordered]; rfl
  | walkTo target => rw [effect, clampInto_eq]; rfl
  | «show» => rfl

end Troupe.Checked
