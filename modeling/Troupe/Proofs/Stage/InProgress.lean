import Troupe.Proofs.Stage.Registry

/-! # What is in progress

A performance is reported as in progress from its start until a tick finds all its runs finished.
Somebody whose run is not finished is never overlooked. But a removed actor takes its run along,
and if nobody else has anything left to do, the report is wrong until the next tick: there is no
run any more that could be in progress, and neither another performance nor a reset is possible.

* `hasUnfinished` — whether a run is not finished.
* `Call.Strands` — the calls that make the report wrong.
* `running_eq_hasUnfinished_iff` — when it is right.
-/

namespace Troupe.Stage

open Troupe.Number (Trigonometry)
open Troupe.Script
open scoped Troupe.IdPool

section

variable [LawfulIdSource] {stage changed : Stage} {call : Call} {id : ActorId} {actor : Actor}

def hasUnfinished (stage : Stage) : Bool :=
  stage.runs.any fun run => !run.isFinished

/-- Whether a call removes the last actor whose run is not finished. -/
def Call.Strands (stage : Stage) : Call → Prop
  | .remove id =>
    stage.running = true ∧ ∀ run ∈ stage.runs, run.isFinished = false → run.actor = id
  | _ => False

theorem hasUnfinished_eq_true_iff :
    stage.hasUnfinished = true ↔ ∃ run ∈ stage.runs, run.isFinished = false := by
  simp [hasUnfinished]

/-- Whoever is not finished performs. -/
theorem Coherent.running_of_hasUnfinished (coherent : stage.Coherent)
    (unfinished : stage.hasUnfinished = true) : stage.running = true := by
  cases running : stage.running with
  | true => rfl
  | false => simp [hasUnfinished, coherent.idle running] at unfinished

theorem reset_refused_iff (stage : Stage) :
    stage.reset.1 = .error .runInProgress ↔ stage.running = true := by
  cases running : stage.running with
  | true => simp [reset, running]
  | false => simp [reset, running]

variable [Trigonometry]

/-- A tick ends a performance exactly if it leaves all runs finished. -/
theorem Coherent.running_tick (coherent : stage.Coherent) (now : Nat) :
    (stage.tick now).running = (stage.tick now).hasUnfinished := by
  cases running : stage.running with
  | false => simp [tick_of_idle running, running, hasUnfinished, coherent.idle running]
  | true =>
    have goesOn := (status_meet_advance stage now).1
    rw [running] at goesOn
    rw [tick_of_running running]
    rcases conclude_cases (stage.advance now).meet with ⟨_, concludes⟩ | ⟨unfinished, concludes⟩
    · rw [concludes]
      rfl
    · rw [concludes, goesOn, hasUnfinished, List.any_eq_not_all_not]
      simp [unfinished]

/-! ## Removing an actor -/

theorem running_remove (live : stage.actor? id = some actor) :
    (stage.after (.remove id)).running = stage.running := by
  rw [(after_remove live).2]

theorem hasUnfinished_remove (live : stage.actor? id = some actor) :
    (stage.after (.remove id)).hasUnfinished = true ↔
      ∃ run ∈ stage.runs, run.isFinished = false ∧ run.actor ≠ id := by
  rw [(after_remove live).2, hasUnfinished_eq_true_iff]
  simp only [List.mem_filter, bne_iff_ne, and_assoc]
  exact exists_congr fun run => and_congr_right fun _ => and_comm

/-- The report stays right unless nobody else is unfinished. -/
theorem running_remove_iff (live : stage.actor? id = some actor)
    (right : stage.running = stage.hasUnfinished) :
    (stage.after (.remove id)).running = (stage.after (.remove id)).hasUnfinished ↔
      ¬ Call.Strands stage (.remove id) := by
  rw [running_remove live, Bool.eq_iff_iff, hasUnfinished_remove live]
  constructor
  · intro same ⟨running, sole⟩
    obtain ⟨run, member, unfinished, other⟩ := same.mp running
    exact other (sole run member unfinished)
  · intro notSole
    constructor
    · intro running
      refine Classical.byContradiction fun nobody => notSole ⟨running, ?_⟩
      intro run member unfinished
      exact Classical.byContradiction fun other => nobody ⟨run, member, unfinished, other⟩
    · intro ⟨run, member, unfinished, _⟩
      rw [right, hasUnfinished_eq_true_iff]
      exact ⟨run, member, unfinished⟩

/-! ## All calls -/

/-- Everything but a removal leaves the report as right as it was, and playing sets it right. -/
theorem running_outcome (coherent : stage.Coherent) (outcome : Outcome stage call changed)
    (remains : ∀ id, call ≠ .remove id) (right : stage.running = stage.hasUnfinished) :
    changed.running = changed.hasUnfinished := by
  cases outcome with
  | removed => exact absurd rfl (remains _)
  | refused | added | selected | dragged | resized | sentHome | edited | chosen => exact right
  | started => exact coherent.launched.running_tick _
  | ticked => exact coherent.running_tick _

theorem running_after_iff (coherent : stage.Coherent)
    (right : stage.running = stage.hasUnfinished) (call : Call) :
    (stage.after call).running = (stage.after call).hasUnfinished ↔ ¬ call.Strands stage := by
  have outcome := outcome_after stage call
  cases call with
  | remove id =>
    cases live : stage.actor? id with
    | some actor => exact running_remove_iff live right
    | none =>
      rw [(after_remove_of_absent live).2]
      refine iff_of_true right fun ⟨running, sole⟩ => ?_
      -- The last one to finish is on the stage.
      obtain ⟨run, member, unfinished⟩ := hasUnfinished_eq_true_iff.mp (right.symm.trans running)
      obtain ⟨actor, shows, _⟩ := coherent.live member
      rw [sole run member unfinished, live] at shows
      cases shows
  | add | select | drag | resize | reset | append | insert | appendInside | erase | moveBlock
  | mergeParams | choose | start | tick =>
    exact iff_of_true (running_outcome coherent outcome (fun _ => nofun) right) id

theorem start_refused_iff (stage : Stage) (now : Nat) :
    (stage.start now).1 = .alreadyRunning ↔ stage.running = true := by
  rcases start_cases stage now with ⟨running, result⟩ | ⟨idle, _, result⟩ | ⟨idle, _, result⟩
  · simp [running, result]
  · simp [idle, result]
  · simp [idle, result]

/-! ## Whole histories -/

/-- It is always right to report a performance as in progress exactly if no call removes the last
    actor that is not finished while it is. A report that there is nothing in progress is right in
    any case, and so is every report after a tick; and what is refused because of a performance
    in progress is refused exactly if there is one by the report. -/
theorem running_eq_hasUnfinished_iff (settings : Settings) (calls : List Call) :
    let after (made : Nat) := (Stage.new settings).afterAll (calls.take made)
    ((∀ made, (after made).running = (after made).hasUnfinished) ↔
      ∀ (made : Nat) (call : Call), calls[made]? = some call → ¬ call.Strands (after made)) ∧
      ∀ made,
        ((after made).hasUnfinished = true → (after made).running = true) ∧
        (∀ now, ((after made).tick now).running = ((after made).tick now).hasUnfinished) ∧
        (∀ now, ((after made).start now).1 = .alreadyRunning ↔ (after made).running = true) ∧
        ((after made).reset.1 = .error .runInProgress ↔ (after made).running = true) := by
  intro after
  constructor
  · have fresh : (Stage.new settings).running = (Stage.new settings).hasUnfinished := rfl
    have step (stage : Stage) (reachable : Reachable settings stage)
        (right : stage.running = stage.hasUnfinished) (call : Call) :
        (stage.after call).running = (stage.after call).hasUnfinished ↔
          ¬ call.Strands stage :=
      running_after_iff (coherent_of_reachable reachable) right call
    exact holds_throughout_iff fresh step calls
  · intro made
    have coherent : (after made).Coherent := (coherent_new settings).afterAll _
    exact ⟨coherent.running_of_hasUnfinished, coherent.running_tick,
      start_refused_iff (after made), reset_refused_iff (after made)⟩

end

/-- An actor that was removed on its way. -/
def abandonedWalk : Stage :=
  Stage.afterAll (.new .standard)
    [.add "cat", .append ⟨0, 1⟩ (Block.move 100 ⟨0⟩).1, .start 0, .remove ⟨0, 1⟩]

/-- Nobody is left, but for another performance or a reset it is still too early. -/
theorem abandonedWalk_in_progress :
    Reachable .standard abandonedWalk ∧ abandonedWalk.actors.length = 0 ∧
      abandonedWalk.hasUnfinished = false ∧ abandonedWalk.running = true ∧
      (abandonedWalk.start 100000000).1 = .alreadyRunning ∧
      abandonedWalk.reset.1 = .error .runInProgress := by
  have reports : abandonedWalk.running = true := by decide +kernel
  exact ⟨Reachable.new.afterAll _, by decide +kernel, by decide +kernel, reports,
    (start_refused_iff _ _).mpr reports, (reset_refused_iff _).mpr reports⟩

end Troupe.Stage
