import Troupe.Proofs.Script.Stock
import Troupe.Proofs.Stage.Frame

/-! # What is on the stacks of a performance

Runs get their cursors from scripts, ask them, and trade them. So the cursor of every run is
stocked, whoever had it before and however often it changed hands.

* `Stocked` — the invariant.
* `stocked_afterAll` — it holds after any calls.
-/

namespace Troupe.Stage

open Troupe.Number (Trigonometry)
open Troupe.Script

/-! ## Playing -/

section

variable [Trigonometry]

theorem Run.Played.isStocked {now budget : Nat} {tempo : Tempo} {run later : Run}
    {actor shown : Actor} {actions : List Action}
    (played : Run.Played now tempo budget run actor actions later shown)
    (stocked : run.cursor.IsStocked) : later.cursor.IsStocked := by
  induction played with
  | spent settled | waiting settled =>
    rw [settled.run_eq]
    exact stocked
  | ended settled asked =>
    rw [settled.run_eq] at asked
    exact stocked.of_next asked
  | began settled asked _ ih =>
    rw [settled.run_eq] at asked
    apply ih
    rw [Run.begin_run]
    exact stocked.of_next asked

theorem isStocked_play {run : Run} (stocked : run.cursor.IsStocked) (now : Nat) (tempo : Tempo)
    (budget : Nat) (actor : Actor) : (run.play now tempo budget actor).1.cursor.IsStocked :=
  (run.played now tempo budget actor).isStocked stocked

theorem isStocked_playRun {run : Run} (stocked : run.cursor.IsStocked) (now : Nat) (tempo : Tempo)
    (actors : List Actor) : (playRun now tempo actors run).2.cursor.IsStocked := by
  unfold playRun
  split
  case h_1 => exact stocked
  case h_2 actor _ => exact isStocked_play stocked now tempo tempo.budget actor

theorem isStocked_playRuns {runs : List Run} (stocked : ∀ run ∈ runs, run.cursor.IsStocked)
    (now : Nat) (tempo : Tempo) (actors : List Actor) :
    ∀ run ∈ (playRuns now tempo actors runs).2, run.cursor.IsStocked := by
  induction runs generalizing actors with
  | nil => exact stocked
  | cons run rest ih =>
    obtain ⟨first, others⟩ := List.forall_mem_cons.mp stocked
    exact List.forall_mem_cons.mpr ⟨isStocked_playRun first now tempo actors, ih others _⟩

end

/-! ## The performance -/

variable [LawfulIdSource]

def Stocked (stage : Stage) : Prop :=
  ∀ run ∈ stage.runs, run.cursor.IsStocked

variable {stage : Stage}

theorem Stocked.advance [Trigonometry] (stocked : stage.Stocked) (now : Nat) :
    (stage.advance now).Stocked :=
  isStocked_playRuns stocked now stage.tempo stage.actors

theorem Stocked.exchange (stocked : stage.Stocked) (pair : ActorId × ActorId) :
    (stage.exchange pair).Stocked := by
  unfold Stage.exchange
  split
  case h_2 => exact stocked
  case h_1 a b _ _ =>
    change ∀ run ∈ exchangeCursors stage.runs a.id b.id, run.cursor.IsStocked
    unfold exchangeCursors
    split
    case h_2 => exact stocked
    case h_1 runA runB playsA playsB =>
      refine List.forall_mem_map.mpr fun run member => ?_
      split
      · exact stocked runB (List.mem_of_find?_eq_some playsB)
      · split
        · exact stocked runA (List.mem_of_find?_eq_some playsA)
        · exact stocked run member

theorem Stocked.foldl_exchange (stocked : stage.Stocked) (pairs : List (ActorId × ActorId)) :
    (pairs.foldl Stage.exchange stage).Stocked := by
  induction pairs generalizing stage with
  | nil => exact stocked
  | cons pair rest ih => exact ih (stocked.exchange pair)

theorem Stocked.meet (stocked : stage.Stocked) : stage.meet.Stocked := by
  rw [meet_eq_foldl]
  have before : Stocked { stage with encounters := stage.ongoing } := stocked
  exact before.foldl_exchange _

theorem Stocked.tick [Trigonometry] (stocked : stage.Stocked) (now : Nat) :
    (stage.tick now).Stocked := by
  cases running : stage.running with
  | false => rwa [tick_of_idle running]
  | true =>
    have met := (stocked.advance now).meet
    rw [tick_of_running running]
    rcases conclude_cases (stage.advance now).meet with ⟨_, concludes⟩ | ⟨_, concludes⟩
    · rw [concludes]
      exact fun run member => nomatch member
    · rwa [concludes]

theorem stocked_launch (lineup : Lineup) : (stage.launch lineup).Stocked :=
  List.forall_mem_map.mpr fun part _ => Cursor.isStocked_ofScript part.script

/-! ## All calls -/

theorem Stocked.after [Trigonometry] (stocked : stage.Stocked) (call : Call) :
    (stage.after call).Stocked := by
  have outcome := outcome_after stage call
  generalize stage.after call = changed at outcome
  cases outcome with
  | refused | added | selected | dragged | resized | sentHome | edited | chosen => exact stocked
  | removed => exact fun run member => stocked run (List.mem_filter.mp member).1
  | started => exact (stocked_launch _).tick _
  | ticked => exact stocked.tick _

theorem stocked_afterAll [Trigonometry] (settings : Settings) (calls : List Call) :
    ((Stage.new settings).afterAll calls).Stocked := by
  have kept (stage : Stage) (stocked : stage.Stocked) : (stage.afterAll calls).Stocked := by
    induction calls generalizing stage with
    | nil => exact stocked
    | cons call rest ih => exact ih _ (stocked.after call)
  exact kept _ fun run member => nomatch member

end Troupe.Stage
