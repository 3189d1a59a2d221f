import Mathlib
import Troupe.Proofs.Stage.Journal

/-! # A performance cannot go on without getting anywhere

The weight of a run counts what it still has to do: two for every action to come, one for an
effect in progress, and one as long as the cursor is on the stack. Starting an effect trades
the two of its action for the one of its progress, so a frame that finds every effect over
lightens each run that is not finished, however few effects it may start.

Swaps hand cursors from run to run and leave the total as it is. A total of zero means that
every run is finished, and then the tick ends the performance.
-/

namespace Troupe.Script

def Cursor.weight (cursor : Cursor) : Nat :=
  2 * cursor.upcoming.length + if cursor.isFinished then 0 else 1

theorem Cursor.weight_done : Cursor.done.weight = 0 := rfl

theorem Cursor.weight_eq_zero_iff {cursor : Cursor} :
    cursor.weight = 0 ↔ cursor.isFinished = true := by
  constructor
  · intro weightless
    by_contra onStack
    simp [weight, onStack] at weightless
  · intro finished
    simp [weight, finished, upcoming_of_isFinished finished]

theorem Cursor.weight_of_next_some {cursor moved : Cursor} {action : Action}
    (asked : cursor.next = (some action, moved)) : cursor.weight = moved.weight + 2 := by
  have left := upcoming_of_next_some asked
  have stays : moved.isFinished = false := by simpa [asked] using isFinished_next cursor
  have onStack : cursor.isFinished = false := by
    by_contra finished
    simp [upcoming_of_isFinished (by simpa using finished)] at left
  simp [weight, left, stays, onStack]
  omega

end Troupe.Script

namespace Troupe.Stage

open Troupe.Geometry
open Troupe.Number (Trigonometry)
open Troupe.Script
open Troupe.Playback
open scoped Troupe.IdPool

/-! ## One run -/

namespace Run

def weight (run : Run) : Nat :=
  run.cursor.weight + if run.activity.isSome then 1 else 0

theorem weight_eq_zero_iff {run : Run} : run.weight = 0 ↔ run.isFinished = true := by
  cases busy : run.activity <;> simp [weight, isFinished, busy, Cursor.weight_eq_zero_iff]

variable {run later : Run} {actor shown : Actor} {now : Nat} {bounds : Bounds}
  {progress : Progress}

theorem Settled.weight_le (settled : Settled run actor now bounds (later, shown, progress)) :
    later.weight ≤ run.weight := by
  cases settled <;> simp_all [weight]

theorem weight_begin (run : Run) (actor : Actor) (effect : Effect) (tempo : Tempo) :
    (run.begin actor effect tempo).1.weight = run.cursor.weight + 1 := by
  cases effect <;> simp [begin, weight]

/-- Whatever the activity in progress is, its step at this time is its last. -/
def IsDue (run : Run) (actor : Actor) (now : Nat) (bounds : Bounds) : Prop :=
  ∀ activity ∈ run.activity, (activity.step actor now bounds).2.2 = .done

theorem Settled.not_pending_of_isDue (due : run.IsDue actor now bounds) :
    ¬ Settled run actor now bounds (later, shown, .pending) := by
  intro settled
  cases settled with
  | moving busy stepped => simpa [Activity.step, stepped] using due _ busy
  | showing busy stepped => simpa [Activity.step, stepped] using due _ busy

section Played

variable [Trigonometry] {tempo : Tempo} {budget : Nat} {actions : List Action}

theorem Played.weight_le (played : Played now tempo budget run actor actions later shown) :
    later.weight ≤ run.weight := by
  induction played with
  | spent settled | waiting settled => exact settled.weight_le
  | ended settled asked =>
    obtain ⟨-, rfl⟩ := Cursor.upcoming_of_next_none asked
    have before := settled.weight_le
    simp [weight, settled.activity_eq_none, Cursor.weight_done]
  | began settled asked _ ih =>
    -- The action weighs two, and its effect in progress one.
    have started := Cursor.weight_of_next_some asked
    have before := settled.weight_le
    rw [weight_begin] at ih
    simp [weight, settled.activity_eq_none] at before ih ⊢
    omega

/-- A run that is not finished gets lighter once its effect is over: the effect goes, the
    cursor leaves the stack, or an action is used up. -/
theorem Played.weight_lt
    (played : Played now tempo (budget + 1) run actor actions later shown)
    (due : run.IsDue actor now tempo.bounds) (unfinished : run.isFinished = false) :
    later.weight < run.weight := by
  have positive : 0 < run.weight :=
    Nat.pos_of_ne_zero fun weightless => by simp [weight_eq_zero_iff.mp weightless] at unfinished
  cases played with
  | waiting settled => exact absurd settled (Settled.not_pending_of_isDue due)
  | ended settled asked =>
    -- Nothing is in progress and nothing to come, so all weight that is left was the cursor's.
    obtain ⟨-, rfl⟩ := Cursor.upcoming_of_next_none asked
    simpa [weight, settled.activity_eq_none, Cursor.weight_done] using positive
  | began settled asked goesOn =>
    have started := Cursor.weight_of_next_some asked
    have before := settled.weight_le
    have after := goesOn.weight_le
    rw [weight_begin] at after
    simp [weight, settled.activity_eq_none] at before after ⊢
    omega

end Played

end Run

/-! ## All runs -/

section

variable [LawfulIdSource]

def weight (stage : Stage) : Nat :=
  (stage.runs.map Run.weight).sum

/-- Every effect in progress is over when it is carried on with at this time. -/
def IsDue (stage : Stage) (now : Nat) : Prop :=
  ∀ run ∈ stage.runs, ∀ actor ∈ stage.actor? run.actor, run.IsDue actor now stage.bounds

variable {stage : Stage}

theorem isFinished_of_weight_eq_zero (weightless : stage.weight = 0) :
    stage.runs.all Run.isFinished = true := by
  refine List.all_eq_true.mpr fun run member => Run.weight_eq_zero_iff.mp ?_
  exact List.sum_eq_zero_iff.mp weightless _ (List.mem_map_of_mem member)

theorem weight_eq_zero_of_isFinished (finished : stage.runs.all Run.isFinished = true) :
    stage.weight = 0 := by
  refine List.sum_eq_zero_iff.mpr (List.forall_mem_map.mpr fun run member => ?_)
  exact Run.weight_eq_zero_iff.mpr (List.all_eq_true.mp finished run member)

namespace Coherent

/-- Swaps permute the cursors among the runs, and what the runs are busy with stays. -/
theorem weight_meet (coherent : stage.Coherent) : stage.meet.weight = stage.weight := by
  let carried (id : ActorId) : Nat := (stage.cursorOf id).weight
  let busy (run : Run) : Nat := if run.activity.isSome then 1 else 0
  have own : stage.weight =
      ((stage.runs.map (·.actor)).map carried).sum + (stage.runs.map busy).sum := by
    rw [weight, List.map_map, ← List.sum_map_add]
    refine congrArg List.sum (List.map_congr_left fun run member => ?_)
    simp only [carried, busy, Function.comp_apply, Run.weight,
      cursorOf_of_run (coherent.run?_of_mem member)]
  have handed : stage.meet.weight =
      (((stage.runs.map (·.actor)).map (trading stage.met)).map carried).sum +
        (stage.runs.map busy).sum := by
    rw [meet_eq_traded coherent, weight, List.map_map, List.map_map, ← List.sum_map_add]
    exact congrArg List.sum List.map_map
  rw [own, handed, ((map_trading_perm coherent).map carried).sum_nat]

variable [Trigonometry]

theorem weight_advance_le (coherent : stage.Coherent) (now : Nat) :
    (stage.advance now).weight ≤ stage.weight := by
  rw [advance_eq stage now coherent.distinct coherent.once]
  simp only [weight, List.map_map]
  refine List.sum_le_sum fun run member => ?_
  obtain ⟨actor, shows, _⟩ := coherent.live member
  rw [Function.comp_apply, playedOn_of_actor now stage.tempo shows]
  exact (run.played now stage.tempo stage.tempo.budget actor).weight_le

theorem weight_advance_lt (coherent : stage.Coherent) {now : Nat} (due : stage.IsDue now)
    {run : Run} (member : run ∈ stage.runs) (unfinished : run.isFinished = false) :
    (stage.advance now).weight < stage.weight := by
  rw [advance_eq stage now coherent.distinct coherent.once]
  simp only [weight, List.map_map]
  refine List.sum_lt_sum _ _ (fun other present => ?_) ⟨run, member, ?_⟩
  · obtain ⟨actor, shows, _⟩ := coherent.live present
    rw [Function.comp_apply, playedOn_of_actor now stage.tempo shows]
    exact (other.played now stage.tempo stage.tempo.budget actor).weight_le
  · obtain ⟨actor, shows, _⟩ := coherent.live member
    -- Whatever the settings say, a run may start one effect at least.
    obtain ⟨budget, allows⟩ : ∃ budget, stage.tempo.budget = budget + 1 :=
      Nat.exists_eq_add_one.mpr (Nat.lt_of_lt_of_le Nat.one_pos (Nat.le_max_right _ _))
    have played := run.played now stage.tempo stage.tempo.budget actor
    rw [Function.comp_apply, playedOn_of_actor now stage.tempo shows]
    rw [allows] at played ⊢
    exact played.weight_lt (due run member actor shows) unfinished

theorem weight_tick_le (coherent : stage.Coherent) (now : Nat) :
    (stage.tick now).weight ≤ stage.weight := by
  cases running : stage.running with
  | false => rw [tick_of_idle running]
  | true =>
    have played := coherent.weight_advance_le now
    rw [← (coherent.advanced now).weight_meet] at played
    rw [tick_of_running running]
    rcases conclude_cases (stage.advance now).meet with ⟨_, concludes⟩ | ⟨_, concludes⟩
    · rw [concludes]
      exact Nat.zero_le _
    · rw [concludes]
      exact played

theorem weight_tick_lt (coherent : stage.Coherent) {now : Nat} (due : stage.IsDue now) :
    (stage.tick now).running = false ∨ (stage.tick now).weight < stage.weight := by
  cases running : stage.running with
  | false => exact .inl (by rw [tick_of_idle running, running])
  | true =>
    rw [tick_of_running running]
    rcases conclude_cases (stage.advance now).meet with ⟨_, concludes⟩ | ⟨goesOn, concludes⟩
    · exact .inl (by rw [concludes]; rfl)
    · right
      have meets := (coherent.advanced now).weight_meet
      rw [concludes, meets]
      -- If every run had been finished before, the performance would have ended.
      by_cases finished : stage.runs.all Run.isFinished = true
      · have weightless : (stage.advance now).meet.weight = 0 := by
          have played := coherent.weight_advance_le now
          rw [weight_eq_zero_of_isFinished finished] at played
          omega
        simp [isFinished_of_weight_eq_zero weightless] at goesOn
      · simp only [List.all_eq_true, not_forall, Bool.not_eq_true] at finished
        obtain ⟨run, member, unfinished⟩ := finished
        exact coherent.weight_advance_lt due member unfinished

end Coherent

variable [Trigonometry]

theorem running_tick_of_weightless {now : Nat} (weightless : (stage.tick now).weight = 0) :
    (stage.tick now).running = false := by
  cases running : stage.running with
  | false => rw [tick_of_idle running, running]
  | true =>
    rw [tick_of_running running] at weightless ⊢
    rcases conclude_cases (stage.advance now).meet with ⟨_, concludes⟩ | ⟨goesOn, concludes⟩
    · rw [concludes]
      rfl
    · rw [concludes] at weightless
      simp [isFinished_of_weight_eq_zero weightless] at goesOn

/-! ## Whole performances -/

/-- Every one of the ticks finds all effects over. -/
def IsDueThroughout (stage : Stage) : List Nat → Prop
  | [] => True
  | now :: rest => stage.IsDue now ∧ (stage.tick now).IsDueThroughout rest

theorem running_ticks_of_idle (idle : stage.running = false) (ticks : List Nat) :
    (ticks.foldl tick stage).running = false := by
  induction ticks with
  | nil => exact idle
  | cons now rest ih => rwa [List.foldl_cons, tick_of_idle idle]

/-- A performance ends after at most one tick more than it weighs, if each of them comes when
    the effects in progress are over. -/
theorem ends_within_weight {ticks : List Nat} (coherent : stage.Coherent)
    (due : stage.IsDueThroughout ticks) (enough : stage.weight < ticks.length) :
    (ticks.foldl tick stage).running = false := by
  induction ticks generalizing stage with
  | nil => exact absurd enough (Nat.not_lt_zero _)
  | cons now rest ih =>
    rw [List.foldl_cons]
    rcases coherent.weight_tick_lt due.1 with ends | lighter
    · exact running_ticks_of_idle ends rest
    · refine ih (coherent.ticked now) due.2 ?_
      rw [List.length_cons] at enough
      omega

/-- The weight counts the actions that the cursors return from now on. No tick makes a stage
    heavier, a tick that finds every effect in progress over ends the performance or makes it
    lighter, and one that leaves no weight ends it, whatever swaps are made and however few
    effects a run may start. -/
theorem tick_uses_up_weight {settings : Settings} (reachable : Reachable settings stage)
    (now : Nat) :
    (∀ run ∈ stage.runs, run.cursor.Yields run.cursor.upcoming) ∧
      (stage.tick now).weight ≤ stage.weight ∧
      (stage.IsDue now →
        (stage.tick now).running = false ∨ (stage.tick now).weight < stage.weight) ∧
      ((stage.tick now).weight = 0 → (stage.tick now).running = false) := by
  have coherent := coherent_of_reachable reachable
  exact ⟨fun run _ => run.cursor.yields_upcoming, coherent.weight_tick_le now,
    fun due => coherent.weight_tick_lt due, running_tick_of_weightless⟩

end

/-- Both walks are over after half a second: one actor has arrived for good, and the other
    one starts its turn. -/
theorem meetingPair_uses_up_weight :
    meetingPair.weight = 6 ∧ meetingPair.IsDue 500000000 ∧
      (meetingPair.tick 500000000).running = true ∧
      (meetingPair.tick 500000000).weight < meetingPair.weight := by
  have reachable : Reachable .standard meetingPair := reachable_facingPair.after _
  have due : meetingPair.IsDue 500000000 := by
    unfold IsDue Run.IsDue
    decide +kernel
  have goesOn : (meetingPair.tick 500000000).running = true := by decide +kernel
  obtain ⟨_, _, lighter, _⟩ := tick_uses_up_weight reachable 500000000
  exact ⟨by decide +kernel, due, goesOn, (lighter due).resolve_left (by simp [goesOn])⟩

end Troupe.Stage
