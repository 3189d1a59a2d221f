import Troupe.Proofs.Actor.Source
import Troupe.Stage.History

/-! # What a call can come to

A call is refused or carried out, and there are only so many ways in which it can change a
stage. `outcome_after` lists them once, so that whatever is kept by all calls is shown case
by case without opening a call again.
-/

namespace Troupe.Stage

open Troupe.Number (Trigonometry)
open Troupe.Script (Block)

def Call.isEdit : Call → Bool
  | .append .. | .insert .. | .appendInside .. | .erase .. | .moveBlock .. | .mergeParams .. => true
  | _ => false

/-- The actor that a call is addressed to. -/
def Call.addressee? : Call → Option ActorId
  | .remove actor | .select actor | .drag actor _ | .append actor _ | .insert actor _ _
  | .appendInside actor _ _ | .erase actor _ | .moveBlock actor _ _ | .mergeParams actor _ _ =>
    some actor
  | .add _ | .resize _ _ | .reset | .choose _ | .start _ | .tick _ => none

section

variable [LawfulIdSource]

def newcomer (stage : Stage) (template : Template) : Actor where
  id := (IdSource.take stage.ids).1
  name := template.name
  image := template.image
  template := template.id
  home := stage.bounds.clamp template.home
  pose := ⟨stage.bounds.clamp template.home, 0⟩
  message := .none
  script := []

/-- The scripted actors, who play when a performance starts. -/
def cast (stage : Stage) : List Actor :=
  stage.roster.filter Actor.isScripted

theorem editScript_cases {α : Type} (stage : Stage) (id : ActorId)
    (edit : List Block → Except Failure α × List Block) :
    (stage.actor? id = none ∧ stage.editScript id edit = (.error (.unknownActor id), stage)) ∨
      ∃ actor, stage.actor? id = some actor ∧
        stage.editScript id edit =
          ((edit actor.script).1, stage.setScript id (edit actor.script).2) := by
  unfold editScript
  split
  case h_1 absent => exact .inl ⟨absent, rfl⟩
  case h_2 actor shows => exact .inr ⟨actor, shows, rfl⟩

theorem withoutAnswer_editScript {α : Type} (stage : Stage) (id : ActorId)
    (edit : List Block → Except Failure α × List Block) :
    withoutAnswer (stage.editScript id edit) =
      stage.editScript id fun script =>
        ((edit script).1.map fun _ => (), (edit script).2) := by
  unfold editScript
  split <;> rfl

end

variable [Trigonometry] [LawfulIdSource]

def currentLineup (stage : Stage) : Lineup :=
  lineup stage.settings stage.cast

inductive Outcome (stage : Stage) : Call → Stage → Prop
  | refused {call : Call} : Outcome stage call stage
  | added {name : String} {template : Template}
      (known : stage.settings.template? name = some template) :
      Outcome stage (.add name)
        { stage with
          actors := stage.actors ++ [stage.newcomer template]
          order := stage.order ++ [(IdSource.take stage.ids).1]
          ids := (IdSource.take stage.ids).2
          selected := some (IdSource.take stage.ids).1 }
  | removed {id : ActorId} {actor : Actor} {selected : Option ActorId}
      (live : stage.actor? id = some actor) :
      Outcome stage (.remove id)
        { stage with
          actors := stage.actors.filter (·.id != id)
          order := stage.order.filter (· != id)
          ids := IdSource.giveBack stage.ids id
          runs := stage.runs.filter (·.actor != id)
          selected }
  | selected {id : ActorId} {actor : Actor} (live : stage.actor? id = some actor) :
      Outcome stage (.select id) { stage with selected := some id }
  | dragged {id : ActorId} {position : Geometry.Point} :
      Outcome stage (.drag id position)
        (stage.modify id (·.movedTo (stage.bounds.clamp position)))
  | resized {width height : Float32} :
      Outcome stage (.resize width height) (stage.resize width height)
  | sentHome (idle : stage.running = false) :
      Outcome stage .reset { stage with actors := stage.actors.map (·.reset stage.bounds) }
  | edited {call : Call} {id : ActorId} {script : List Block} (edits : call.isEdit = true) :
      Outcome stage call (stage.setScript id script)
  | chosen {choreography : Swap.Choreography} :
      Outcome stage (.choose choreography) (stage.choose choreography)
  | started {now : Nat} (idle : stage.running = false) (scripted : stage.cast ≠ []) :
      Outcome stage (.start now) ((stage.launch stage.currentLineup).tick now)
  | ticked {now : Nat} : Outcome stage (.tick now) (stage.tick now)

/-! ## Single calls -/

/-- What a request to start a performance comes to: it is in progress already, nobody has
    anything to play, or the lineup is launched and plays its first frame. -/
theorem start_cases (stage : Stage) (now : Nat) :
    (stage.running = true ∧ stage.start now = (.alreadyRunning, stage)) ∨
    (stage.running = false ∧ stage.cast = [] ∧ stage.start now = (.nothingToRun, stage)) ∨
    (stage.running = false ∧ stage.cast ≠ [] ∧
      stage.start now = (.started stage.cast.length stage.currentLineup.swaps,
        (stage.launch stage.currentLineup).tick now)) := by
  unfold start
  split
  case isTrue running => exact .inl ⟨running, rfl⟩
  case isFalse idle =>
    have idle : stage.running = false := by simpa using idle
    dsimp only
    split
    case isTrue empty => exact .inr (.inl ⟨idle, List.isEmpty_iff.mp empty, rfl⟩)
    case isFalse scripted =>
      exact .inr (.inr ⟨idle, fun empty => scripted (List.isEmpty_iff.mpr empty), rfl⟩)

theorem start_of_started {stage : Stage} {now actors swaps : Nat}
    (starts : (stage.start now).1 = .started actors swaps) :
    (stage.start now).2 = (stage.launch stage.currentLineup).tick now := by
  rcases start_cases stage now with ⟨_, result⟩ | ⟨_, _, result⟩ | ⟨_, _, result⟩
  · rw [result] at starts
    cases starts
  · rw [result] at starts
    cases starts
  · rw [result]

/-- All edits come to `editScript`, whatever the stage. -/
theorem exists_edit {call : Call} (edits : call.isEdit = true) :
    ∃ (target : ActorId) (edit : List Block → Except Failure Unit × List Block),
      call.addressee? = some target ∧
        ∀ stage : Stage, stage.call call = stage.editScript target edit := by
  cases call with
  | append | insert | appendInside | erase =>
    exact ⟨_, _, rfl, fun stage => withoutAnswer_editScript stage _ _⟩
  | moveBlock => exact ⟨_, _, rfl, fun stage => by rw [Stage.call, moveBlock]⟩
  | mergeParams => exact ⟨_, _, rfl, fun stage => by rw [Stage.call, mergeParams, visitBlock]⟩
  | add | remove | select | drag | resize | reset | choose | start | tick => cases edits

theorem outcome_edit {stage : Stage} {call : Call} (edits : call.isEdit = true) :
    Outcome stage call (stage.after call) := by
  obtain ⟨target, edit, _, made⟩ := exists_edit edits
  unfold after
  rw [made]
  rcases editScript_cases stage target edit with ⟨_, result⟩ | ⟨_, _, result⟩
  · rw [result]; exact .refused
  · rw [result]; exact .edited edits

/-! ## All calls -/

theorem outcome_after (stage : Stage) (call : Call) : Outcome stage call (stage.after call) := by
  -- All calls but the edits are opened, and refused or carried out.
  cases call with
  | append | insert | appendInside | erase | moveBlock | mergeParams => exact outcome_edit rfl
  | add name =>
    simp only [after, Stage.call, add, withoutAnswer]
    cases known : stage.settings.template? name with
    | none => exact .refused
    | some template => exact .added known
  | remove id =>
    simp only [after, Stage.call, remove]
    cases live : stage.actor? id with
    | none => exact .refused
    | some actor => exact .removed live
  | select id =>
    simp only [after, Stage.call, select]
    cases live : stage.actor? id with
    | none => exact .refused
    | some actor => exact .selected live
  | drag id position =>
    simp only [after, Stage.call, drag, withoutAnswer]
    cases live : stage.actor? id with
    | none => exact .refused
    | some actor => exact .dragged
  | resize width height => exact .resized
  | reset =>
    simp only [after, Stage.call, reset]
    by_cases running : stage.running = true
    · rw [if_pos running]; exact .refused
    · rw [if_neg running]; exact .sentHome (by simpa using running)
  | choose choreography => exact .chosen
  | start now =>
    simp only [after, Stage.call]
    rcases start_cases stage now with ⟨_, result⟩ | ⟨_, _, result⟩ | ⟨idle, scripted, result⟩
    · rw [result]; exact .refused
    · rw [result]; exact .refused
    · rw [result]; exact .started idle scripted
  | tick now => exact .ticked

theorem Reachable.afterAll {settings : Settings} {stage : Stage}
    (reachable : Reachable settings stage) (calls : List Call) :
    Reachable settings (stage.afterAll calls) := by
  induction calls generalizing stage with
  | nil => exact reachable
  | cons call rest ih => exact ih (reachable.after call)

/-- A property that a stage has after every call of a history, if the calls that take it away
    are known. The induction is on the number of calls made. -/
theorem holds_throughout_iff {settings : Settings} {holds : Stage → Prop}
    {breaks : Stage → Call → Prop} (fresh : holds (.new settings))
    (step : ∀ stage, Reachable settings stage → holds stage → ∀ call,
      holds (stage.after call) ↔ ¬ breaks stage call) (calls : List Call) :
    (∀ made, holds ((Stage.new settings).afterAll (calls.take made))) ↔
      ∀ made call, calls[made]? = some call →
        ¬ breaks ((Stage.new settings).afterAll (calls.take made)) call := by
  have reachable (made : Nat) :
      Reachable settings ((Stage.new settings).afterAll (calls.take made)) :=
    Reachable.new.afterAll _
  have next {made : Nat} {call : Call} (comes : calls[made]? = some call) :
      (Stage.new settings).afterAll (calls.take (made + 1)) =
        ((Stage.new settings).afterAll (calls.take made)).after call := by
    simp [afterAll, List.take_add_one, comes]
  constructor
  · intro always made call comes
    exact (step _ (reachable made) (always made) call).mp (next comes ▸ always (made + 1))
  · intro unbroken made
    induction made with
    | zero => exact fresh
    | succ made ih =>
      cases comes : calls[made]? with
      | none =>
        rwa [List.take_add_one, comes, Option.toList_none, List.append_nil]
      | some call =>
        rw [next comes]
        exact (step _ (reachable made) ih call).mpr (unbroken made call comes)

end Troupe.Stage
