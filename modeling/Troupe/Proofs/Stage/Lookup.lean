import Troupe.Proofs.Actor.Source
import Troupe.Stage.Editing
import Troupe.Stage.Performance

/-! # Looking up actors and runs

Actors are looked up by identity and runs by the identity of their actor. So are the script of an
actor and the place of a run in the script it plays.
-/

namespace Troupe.Stage

open Troupe.Script (Block Cursor)

variable [LawfulIdSource]

def run? (stage : Stage) (id : ActorId) : Option Run :=
  stage.runs.find? (·.actor = id)

def scriptOf (stage : Stage) (id : ActorId) : List Block :=
  match stage.actor? id with
  | some actor => actor.script
  | none => []

def cursorOf (stage : Stage) (id : ActorId) : Cursor :=
  match stage.run? id with
  | some run => run.cursor
  | none => .done

theorem id_of_actor? {stage : Stage} {id : ActorId} {actor : Actor}
    (shows : stage.actor? id = some actor) : actor.id = id := by
  simpa using List.find?_some shows

theorem mem_actors_of_mem_roster {stage : Stage} {actor : Actor} (listed : actor ∈ stage.roster) :
    actor ∈ stage.actors := by
  obtain ⟨_, _, shows⟩ := List.mem_filterMap.mp listed
  exact List.mem_of_find?_eq_some shows

theorem roster_eq {stage : Stage} (distinct : (stage.actors.map (·.id)).Nodup)
    (listed : stage.order = stage.actors.map (·.id)) : stage.roster = stage.actors := by
  rw [roster, listed]
  exact filterMap_find? distinct

theorem actor_of_run? {stage : Stage} {id : ActorId} {run : Run}
    (plays : stage.run? id = some run) : run.actor = id := by
  simpa using List.find?_some plays

theorem cursorOf_of_run {stage : Stage} {id : ActorId} {run : Run}
    (plays : stage.run? id = some run) : stage.cursorOf id = run.cursor := by
  simp only [cursorOf, plays]

theorem cursorOf_of_absent {stage : Stage} {id : ActorId} (absent : stage.run? id = none) :
    stage.cursorOf id = .done := by
  simp only [cursorOf, absent]

theorem actor?_modify {change : Actor → Actor} (keepsId : ∀ actor, (change actor).id = actor.id)
    (stage : Stage) (changed id : ActorId) :
    (stage.modify changed change).actor? id =
      (stage.actor? id).map fun actor => if id = changed then change actor else actor := by
  refine (find?_map_of_key (fun actor => ?_) id).trans (Option.map_congr fun actor shows => ?_)
  · split <;> simp only [keepsId]
  · rw [id_of_actor? shows]

theorem actor?_setScript (stage : Stage) (changed id : ActorId) (script : List Block) :
    (stage.setScript changed script).actor? id =
      (stage.actor? id).map fun actor => if id = changed then { actor with script } else actor := by
  refine actor?_modify ?_ stage changed id
  exact fun _ => rfl

theorem editScript_of_actor {α : Type} {stage : Stage} {id : ActorId} {actor : Actor}
    (shows : stage.actor? id = some actor)
    (edit : List Block → Except Failure α × List Block) :
    stage.editScript id edit =
      ((edit actor.script).1, stage.setScript id (edit actor.script).2) := by
  simp only [editScript, shows]

/-- A script written back. -/
theorem setScript_self {stage : Stage} {id : ActorId} {actor : Actor}
    (distinct : (stage.actors.map (·.id)).Nodup) (shows : stage.actor? id = some actor) :
    stage.setScript id actor.script = stage := by
  have same : ∀ other ∈ stage.actors,
      (if other.id = id then { other with script := actor.script } else other) = other := by
    intro other member
    split
    case isTrue own =>
      have found := (find?_eq_some_iff distinct).mpr ⟨member, own⟩
      cases shows.symm.trans found
      rfl
    case isFalse => rfl
  simp only [setScript, modify, List.map_congr_left same, List.map_id']

end Troupe.Stage
