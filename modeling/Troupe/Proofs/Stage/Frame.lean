import Troupe.Proofs.Stage.Outcome
import Troupe.Proofs.Stage.Playing

/-! # What a tick leaves alone

A tick plays a frame, makes the swaps of the actors that met and ends the performance when
every run is finished. The first changes poses, messages and runs, the second scripts and
cursors, the third the performance only. Each phase is stated as a record update of what it
may change, and a swap moreover as a fact about every reading that does not look at scripts
or cursors.
-/

namespace Troupe.Stage

open Troupe.Number (Trigonometry)
open Troupe.Script (Block Cursor)

variable {Reading : Type}

/-! ## Swapping cursors -/

theorem map_exchangeCursors (read : Run → Reading)
    (ignores : ∀ run cursor, read { run with cursor } = read run)
    (runs : List Run) (a b : ActorId) :
    (exchangeCursors runs a b).map read = runs.map read := by
  unfold exchangeCursors
  split
  case h_1 runA runB _ _ =>
    rw [List.map_map]
    refine List.map_congr_left fun run _ => ?_
    simp only [Function.comp_apply]
    split
    · exact ignores run runB.cursor
    · split
      · exact ignores run runA.cursor
      · rfl
  case h_2 => rfl

variable [LawfulIdSource]

/-! ## Playing a frame -/

theorem advance_eq [Trigonometry] (stage : Stage) (now : Nat)
    (distinct : (stage.actors.map (·.id)).Nodup) (once : (stage.runs.map (·.actor)).Nodup) :
    stage.advance now =
      { stage with
        actors := stage.actors.map (playedBy now stage.tempo stage.runs)
        runs := stage.runs.map (playedOn now stage.tempo stage.actors) } := by
  simp only [advance, playRuns_eq now stage.tempo distinct once]

theorem advance_settings [Trigonometry] (stage : Stage) (now : Nat) :
    (stage.advance now).settings = stage.settings := rfl

/-! ## Swapping -/

theorem exchange_eq (stage : Stage) (pair : ActorId × ActorId) :
    stage.exchange pair =
      { stage with
        actors := (stage.exchange pair).actors, runs := (stage.exchange pair).runs } := by
  unfold exchange
  split <;> rfl

/-- A swap changes nothing of an actor but its script. -/
theorem map_actors_exchange (read : Actor → Reading)
    (ignores : ∀ actor script, read { actor with script } = read actor)
    (stage : Stage) (pair : ActorId × ActorId) :
    (stage.exchange pair).actors.map read = stage.actors.map read := by
  unfold exchange
  split
  case h_1 a b _ _ =>
    rw [List.map_map]
    refine List.map_congr_left fun actor _ => ?_
    simp only [Function.comp_apply]
    split
    · exact ignores actor b.script
    · split
      · exact ignores actor a.script
      · rfl
  case h_2 => rfl

theorem map_runs_exchange (read : Run → Reading)
    (ignores : ∀ run cursor, read { run with cursor } = read run)
    (stage : Stage) (pair : ActorId × ActorId) :
    (stage.exchange pair).runs.map read = stage.runs.map read := by
  unfold exchange
  split
  case h_1 a b _ _ => exact map_exchangeCursors read ignores stage.runs a.id b.id
  case h_2 => rfl

theorem foldl_exchange_eq (pairs : List (ActorId × ActorId)) (stage : Stage) :
    pairs.foldl exchange stage =
      { stage with
        actors := (pairs.foldl exchange stage).actors
        runs := (pairs.foldl exchange stage).runs } := by
  induction pairs generalizing stage with
  | nil => rfl
  | cons pair rest ih =>
    rw [List.foldl_cons, ih, exchange_eq]

theorem map_actors_foldl_exchange (read : Actor → Reading)
    (ignores : ∀ actor script, read { actor with script } = read actor)
    (pairs : List (ActorId × ActorId)) (stage : Stage) :
    (pairs.foldl exchange stage).actors.map read = stage.actors.map read := by
  induction pairs generalizing stage with
  | nil => rfl
  | cons pair rest ih => rw [List.foldl_cons, ih, map_actors_exchange read ignores]

theorem map_runs_foldl_exchange (read : Run → Reading)
    (ignores : ∀ run cursor, read { run with cursor } = read run)
    (pairs : List (ActorId × ActorId)) (stage : Stage) :
    (pairs.foldl exchange stage).runs.map read = stage.runs.map read := by
  induction pairs generalizing stage with
  | nil => rfl
  | cons pair rest ih => rw [List.foldl_cons, ih, map_runs_exchange read ignores]

/-- The pairs that swap in a frame after it was played. -/
def met (stage : Stage) : List (ActorId × ActorId) :=
  if stage.animating && stage.settings.choreography.swapsClose then
    (stage.encounters.update stage.placed).1
  else []

def ongoing (stage : Stage) : Swap.Encounters :=
  if stage.animating && stage.settings.choreography.swapsClose then
    (stage.encounters.update stage.placed).2
  else stage.encounters

theorem meet_eq_foldl (stage : Stage) :
    stage.meet = stage.met.foldl exchange { stage with encounters := stage.ongoing } := by
  unfold meet met ongoing
  split <;> rfl

theorem meet_eq (stage : Stage) :
    stage.meet =
      { stage with
        actors := stage.meet.actors, runs := stage.meet.runs, encounters := stage.ongoing } := by
  rw [meet_eq_foldl, foldl_exchange_eq]

theorem meet_of_not_swapsClose {stage : Stage}
    (apart : stage.settings.choreography.swapsClose = false) : stage.meet = stage := by
  simp only [meet, apart, Bool.and_false, Bool.false_eq_true, if_false]

theorem map_actors_meet (read : Actor → Reading)
    (ignores : ∀ actor script, read { actor with script } = read actor) (stage : Stage) :
    stage.meet.actors.map read = stage.actors.map read := by
  rw [meet_eq_foldl, map_actors_foldl_exchange read ignores]

theorem map_runs_meet (read : Run → Reading)
    (ignores : ∀ run cursor, read { run with cursor } = read run) (stage : Stage) :
    stage.meet.runs.map read = stage.runs.map read := by
  rw [meet_eq_foldl, map_runs_foldl_exchange read ignores]

/-! ## Ending -/

theorem conclude_cases (stage : Stage) :
    (stage.runs.all Run.isFinished = true ∧ stage.conclude = stage.dismiss) ∨
      (stage.runs.all Run.isFinished = false ∧ stage.conclude = stage) := by
  unfold conclude
  split
  case isTrue finished => exact .inl ⟨finished, rfl⟩
  case isFalse unfinished => exact .inr ⟨by simpa using unfinished, rfl⟩

theorem conclude_actors (stage : Stage) : stage.conclude.actors = stage.actors := by
  rcases conclude_cases stage with ⟨_, concluded⟩ | ⟨_, concluded⟩ <;> rw [concluded]
  rfl

theorem conclude_settings (stage : Stage) : stage.conclude.settings = stage.settings := by
  rcases conclude_cases stage with ⟨_, concluded⟩ | ⟨_, concluded⟩ <;> rw [concluded]
  rfl

variable [Trigonometry]

theorem tick_of_running {stage : Stage} (running : stage.running = true) (now : Nat) :
    stage.tick now = (stage.advance now).meet.conclude := by
  simp only [tick, running, if_true]

theorem tick_of_idle {stage : Stage} (idle : stage.running = false) (now : Nat) :
    stage.tick now = stage := by
  simp only [tick, idle, Bool.false_eq_true, if_false]

theorem tick_of_not_swapsClose {stage : Stage} (running : stage.running = true)
    (apart : stage.settings.choreography.swapsClose = false) (now : Nat) :
    stage.tick now = (stage.advance now).conclude := by
  rw [tick_of_running running, meet_of_not_swapsClose]
  exact apart

/-- Whether a performance is in progress is decided at the end of a frame. -/
theorem status_meet_advance (stage : Stage) (now : Nat) :
    (stage.advance now).meet.running = stage.running ∧
      (stage.advance now).meet.animating = stage.animating := by
  rw [meet_eq]
  exact ⟨rfl, rfl⟩

theorem tick_settings (stage : Stage) (now : Nat) : (stage.tick now).settings = stage.settings := by
  cases running : stage.running with
  | true => rw [tick_of_running running, conclude_settings, meet_eq, advance_settings]
  | false => rw [tick_of_idle running]

theorem settings_after_start (stage : Stage) (now : Nat) :
    (stage.after (.start now)).settings = stage.settings := by
  change (stage.start now).2.settings = stage.settings
  rcases start_cases stage now with ⟨_, result⟩ | ⟨_, _, result⟩ | ⟨_, _, result⟩ <;> rw [result]
  rw [tick_settings]
  rfl

end Troupe.Stage
