import Troupe.Proofs.Checked.Effect
import Troupe.Proofs.Script.Stock
import Troupe.Script.Projection

/-! # Cursors without failures

At the end of a pass the passes that remain are counted down, which fails for a list on the stack
with no pass left. A stocked cursor has no such list, so every request is answered, and a cursor
that came from a script is stocked after any requests.

* `next`, `answer`, `projectedPose` — requests, and looking ahead.
* `next_eq`, `answer_eq`, `projectedPose_eq` — they are answered as if nothing could fail.
-/

namespace Troupe.Checked

open Troupe.Geometry (Pose Bounds)
open Troupe.Number (Trigonometry)
open Troupe.Script

/-! ## Steps -/

def afterPass (frame : Frame) (below : List Frame) : Option Cursor := do
  let remaining ← decrement frame.remaining
  return if remaining = 0 then ⟨below⟩ else ⟨{ frame with rest := frame.body, remaining } :: below⟩

def step (cursor : Cursor) : Option Cursor.Step :=
  match cursor.frames with
  | [] => some .finished
  | frame :: below =>
    match frame.rest with
    | [] => (afterPass frame below).map .moved
    | block :: rest =>
      let passed : Cursor := ⟨{ frame with rest } :: below⟩
      (action block).map fun
        | some action => .acted action passed
        | none => .moved (if block.isLoop then passed.push block.body block.times else passed)

theorem afterPass_eq {frame : Frame} (stocked : 0 < frame.remaining) (below : List Frame) :
    afterPass frame below = some (Cursor.afterPass frame below) := by
  rw [afterPass, decrement, if_pos stocked, Cursor.afterPass]
  by_cases last : frame.remaining ≤ 1
  · have zero : frame.remaining - 1 = 0 := by omega
    simp [last, zero]
  · have more : frame.remaining - 1 ≠ 0 := by omega
    simp [last, more]

/-- A list without a pass left is the only thing that a step can fail at. -/
theorem step_cases (cursor : Cursor) :
    step cursor = some cursor.step ∨ step cursor = none ∧ ¬ cursor.IsStocked := by
  obtain ⟨frames⟩ := cursor
  cases frames with
  | nil => exact .inl rfl
  | cons frame below =>
    cases rest : frame.rest with
    | nil =>
      simp only [step, Cursor.step, rest]
      by_cases stocked : 0 < frame.remaining
      · exact .inl (congrArg (Option.map Cursor.Step.moved) (afterPass_eq stocked below))
      · refine .inr ⟨by rw [afterPass, decrement, if_neg stocked]; rfl, fun all => ?_⟩
        exact stocked (all frame List.mem_cons_self).remaining
    | cons block blocks =>
      simp only [step, Cursor.step, rest, action_eq]
      cases block.action? <;> exact .inl rfl

example : step ⟨[{ body := [], rest := [], remaining := 0 }]⟩ = none := rfl

theorem step_eq {cursor : Cursor} (stocked : cursor.IsStocked) :
    step cursor = some cursor.step :=
  (step_cases cursor).resolve_right fun failed => failed.2 stocked

theorem step_eq_of_some {cursor : Cursor} {stepped : Cursor.Step}
    (answers : step cursor = some stepped) : cursor.step = stepped := by
  rcases step_cases cursor with same | ⟨fails, _⟩
  · exact Option.some.inj (same.symm.trans answers)
  · cases fails.symm.trans answers

/-! ## Requests -/

def next (cursor : Cursor) : Option (Option Action × Cursor) :=
  match _stepped : step cursor with
  | none => none
  | some .finished => some (none, cursor)
  | some (.moved moved) => next moved
  | some (.acted action moved) => some (some action, moved)
termination_by cursor.work
decreasing_by exact (Cursor.work_step_lt cursor).1 moved (step_eq_of_some _stepped)

theorem next_eq {cursor : Cursor} (stocked : cursor.IsStocked) :
    next cursor = some cursor.next := by
  fun_induction Cursor.next cursor with
  | case1 cursor finished =>
    rw [next]
    split <;> simp_all [step_eq stocked]
  | case2 cursor moved moves ih =>
    rw [next]
    split <;> simp_all [step_eq stocked, stocked.step.1 moved moves]
  | case3 cursor action moved acts =>
    rw [next]
    split <;> simp_all [step_eq stocked]

theorem next_eq_of_some {cursor : Cursor} {asked : Option Action × Cursor}
    (answers : next cursor = some asked) : cursor.next = asked := by
  fun_induction next cursor with
  | case1 => cases answers
  | case2 cursor finished =>
    rw [Cursor.next]
    split <;> simp_all [step_eq_of_some finished]
  | case3 cursor moved moves ih =>
    rw [Cursor.next]
    split <;> simp_all [step_eq_of_some moves]
  | case4 cursor action moved acts =>
    rw [Cursor.next]
    split <;> simp_all [step_eq_of_some acts]

variable [Trigonometry]

/-- A request made in a pose: the effect of the next action, if there is one, and the cursor
    behind it. -/
def answer (cursor : Cursor) (pose : Pose) (bounds : Bounds) : Option (Option Effect × Cursor) := do
  match ← next cursor with
  | (none, moved) => return (none, moved)
  | (some action, moved) =>
    let effect ← effect action pose bounds
    return (some effect, moved)

theorem answer_eq {cursor : Cursor} (stocked : cursor.IsStocked) (pose : Pose) (bounds : Bounds) :
    answer cursor pose bounds = some (cursor.answer pose bounds, cursor.next.2) := by
  rw [answer, next_eq stocked, Cursor.answer]
  rcases cursor.next with ⟨_ | action, moved⟩
  · rfl
  · simp only [Option.bind_eq_bind, Option.bind_some, effect_eq]
    rfl

/-! ## Looking ahead -/

def finalPose (cursor : Cursor) (pose : Pose) (bounds : Bounds) : Option Pose :=
  match _asked : next cursor with
  | none => none
  | some (none, _) => some pose
  | some (some action, moved) => do
    let effect ← effect action pose bounds
    finalPose moved (effect.finalPose pose) bounds
termination_by cursor.work
decreasing_by exact Cursor.work_next_lt (next_eq_of_some _asked)

theorem finalPose_eq {cursor : Cursor} (stocked : cursor.IsStocked) (pose : Pose)
    (bounds : Bounds) : finalPose cursor pose bounds = some (cursor.finalPose pose bounds) := by
  fun_induction Cursor.finalPose cursor pose bounds with
  | case1 cursor pose moved asked =>
    rw [finalPose]
    split <;> simp_all [next_eq stocked]
  | case2 cursor pose action moved asked ih =>
    have behind := stocked.of_next asked
    rw [finalPose]
    split <;> simp_all [next_eq stocked, effect_eq]

def projectedPose (script : List Block) (start : Pose) (bounds : Bounds) : Option Pose :=
  finalPose (.ofScript script) start bounds

theorem projectedPose_eq (script : List Block) (start : Pose) (bounds : Bounds) :
    projectedPose script start bounds = some (Script.projectedPose script start bounds) :=
  finalPose_eq (Cursor.isStocked_ofScript script) start bounds

end Troupe.Checked
