import Troupe.Proofs.Checked.Edit
import Troupe.Proofs.Checked.Performance
import Troupe.Stage.History

/-! # Calls without failures

Every call to a stage, carried out with operations that can fail. A call that is refused has an
answer as well.

* `call` — a call carried out.
* `NeverFails` — a cursor that answers all requests.
* `no_operation_fails` — no operation fails, neither of a call, whatever calls came before it, nor
  of a cursor.
-/

namespace Troupe.Checked

open Troupe.Geometry
open Troupe.Number (Trigonometry)
open Troupe.Script
open Troupe.Stage (Failure Call withoutAnswer)

/-! ## Actors -/

section Actors

variable [IdSource]

def add (stage : Stage) (template : String) : Option (Except Failure ActorId × Stage) :=
  match stage.settings.template? template with
  | none => some (.error (.unknownTemplate template), stage)
  | some template => do
    let (id, ids) := IdSource.take stage.ids
    let home ← clampInto stage.bounds template.home
    let actor : Actor :=
      ⟨id, template.name, template.image, template.id, home, ⟨home, 0⟩, .none, []⟩
    return (.ok id,
      { stage with
        actors := stage.actors ++ [actor], order := stage.order ++ [id], ids
        selected := some id })

def drag (stage : Stage) (id : ActorId) (position : Point) :
    Option (Except Failure Point × Stage) := do
  let position ← clampInto stage.bounds position
  match stage.actor? id with
  | none => return (.error (.unknownActor id), stage)
  | some _ => return (.ok position, stage.modify id (·.movedTo position))

def resize (stage : Stage) (width height : Float32) : Option Stage := do
  let settings := stage.settings.withSize width height
  let actors ← stage.actors.mapM fun actor => do
    let position ← clampInto settings.bounds actor.pose.position
    return actor.movedTo position
  return { stage with settings, actors }

def reset (stage : Stage) : Option (Except Failure Unit × Stage) :=
  if stage.running then some (.error .runInProgress, stage)
  else do
    let actors ← stage.actors.mapM fun actor => do
      let home ← clampInto stage.bounds actor.home
      return { actor with pose := ⟨home, 0⟩, message := .none }
    return (.ok (), { stage with actors })

theorem add_eq (stage : Stage) (template : String) :
    add stage template = some (stage.add template) := by
  unfold add Stage.add
  cases stage.settings.template? template with
  | none => rfl
  | some template => simp only [clampInto_eq]; rfl

theorem drag_eq (stage : Stage) (id : ActorId) (position : Point) :
    drag stage id position = some (stage.drag id position) := by
  rw [drag, clampInto_eq, Stage.drag, Option.bind_eq_bind, Option.bind_some]
  cases stage.actor? id <;> rfl

theorem resize_eq (stage : Stage) (width height : Float32) :
    resize stage width height = some (stage.resize width height) := by
  have pulls : ∀ actor ∈ stage.actors, (do
      let position ← clampInto (stage.settings.withSize width height).bounds actor.pose.position
      return actor.movedTo position) = some (actor.movedTo
        ((stage.settings.withSize width height).bounds.clamp actor.pose.position)) := by
    intro actor _
    rw [clampInto_eq]
    rfl
  simp only [resize, mapM_eq_some_map pulls]
  rfl

theorem reset_eq (stage : Stage) : reset stage = some stage.reset := by
  have sends : ∀ actor ∈ stage.actors, (do
      let home ← clampInto stage.bounds actor.home
      return { actor with pose := ⟨home, 0⟩, message := .none }) =
        some (actor.reset stage.bounds) := by
    intro actor _
    rw [clampInto_eq]
    rfl
  simp only [reset, Stage.reset, mapM_eq_some_map sends]
  split <;> rfl

end Actors

/-! ## All calls -/

variable [Trigonometry]

def call [IdSource] (stage : Stage) : Call → Option (Except Failure Unit × Stage)
  | .add template => (add stage template).map withoutAnswer
  | .remove actor => some (stage.remove actor)
  | .select actor => some (stage.select actor)
  | .drag actor position => (drag stage actor position).map withoutAnswer
  | .resize width height => do
    let resized ← resize stage width height
    return (.ok (), resized)
  | .reset => reset stage
  | .append actor block => some (withoutAnswer (stage.append actor block))
  | .insert actor index block => (insertBlock stage actor index block).map withoutAnswer
  | .appendInside actor parent block =>
    some (withoutAnswer (stage.appendInside actor parent block))
  | .erase actor block => (erase stage actor block).map withoutAnswer
  | .moveBlock actor source target => moveBlock stage actor source target
  | .mergeParams actor block partials => some (stage.mergeParams actor block partials)
  | .choose choreography => some (.ok (), stage.choose choreography)
  | .start now => do
    let (_, started) ← start stage now
    return (.ok (), started)
  | .tick now => do
    let ticked ← tick stage now
    return (.ok (), ticked)

theorem call_eq [LawfulIdSource] {stage : Stage} (coherent : stage.Coherent)
    (stocked : stage.Stocked) (made : Call) : call stage made = some (stage.call made) := by
  cases made with
  | remove | select | append | appendInside | mergeParams | choose => rfl
  | add template => rw [call, add_eq]; rfl
  | drag actor position => rw [call, drag_eq]; rfl
  | resize width height => rw [call, resize_eq]; rfl
  | reset => exact reset_eq stage
  | insert actor index block => rw [call, insertBlock_eq]; rfl
  | erase actor block => rw [call, erase_eq]; rfl
  | moveBlock actor source target => exact moveBlock_eq stage actor source target
  | start now => rw [call, start_eq coherent]; rfl
  | tick now => rw [call, tick_eq coherent stocked]; rfl

/-! ## Nothing fails -/

/-- Whether a cursor answers every request, whatever requests were made before and whatever pose
    and bounds this one is made in, and never has a list without a pass left on its stack. -/
def NeverFails (cursor : Cursor) : Prop :=
  ∀ (requests : Nat) (pose : Pose) (bounds : Bounds),
    (cursor.after requests).IsStocked ∧
      answer (cursor.after requests) pose bounds =
        some ((cursor.after requests).answer pose bounds, cursor.after (requests + 1))

theorem neverFails_of_isStocked {cursor : Cursor} (stocked : cursor.IsStocked) :
    NeverFails cursor :=
  fun requests pose bounds =>
    ⟨stocked.after requests, answer_eq (stocked.after requests) pose bounds⟩

/-- No operation of a call fails, whatever the settings and the calls before it were: all limits are
    in order, all counts can go down, all places exist and all remainders have a divisor. The
    cursors of the performance do not fail afterwards either, and neither does a cursor of its own,
    a look ahead, or a position moved into bounds that were made by hand. -/
theorem no_operation_fails [LawfulIdSource] (settings : Stage.Settings) (calls : List Call)
    (made : Call) (body script : List Block) (times : Nat) (pose : Pose) (bounds : Bounds)
    (position : Point) :
    let stage := (Stage.new settings).afterAll calls
    call stage made = some (stage.call made) ∧
      stage.Stocked ∧
      NeverFails (.ofBody body times) ∧
      NeverFails (.ofScript script) ∧
      projectedPose script pose bounds = some (Script.projectedPose script pose bounds) ∧
      clampInto bounds position = some (bounds.clamp position) := by
  intro stage
  have coherent : stage.Coherent := (Stage.coherent_new settings).afterAll calls
  have stocked : stage.Stocked := Stage.stocked_afterAll settings calls
  exact ⟨call_eq coherent stocked made, stocked,
    neverFails_of_isStocked (Cursor.isStocked_ofBody body times),
    neverFails_of_isStocked (Cursor.isStocked_ofScript script),
    projectedPose_eq script pose bounds, clampInto_eq bounds position⟩

end Troupe.Checked
