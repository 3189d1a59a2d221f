import Troupe.Proofs.Stage.Departure
import Troupe.Proofs.Stage.Journal

/-! # How a run comes to a stop in a frame

In a frame a run goes as far as it can. It carries on with what it is busy with, starts the next
effect of its script once that is over, carries on with the effect at once, and so on. It stops when
nothing is left of its script, when something takes longer, or when it has started as many effects
as it may. So all that it was busy with in a frame is over at that time, except for the last.

* `Run.carried` — what a run carries on with in a frame, in order.
* `Halt`, `Run.HaltsBy` — the three ways to stop.
* `Run.Progressed` — what holds of a run after a frame, and `Run.progressed_play`, that it does.
* `frame_halts_once` — every run of a frame stops in one of the three ways.
-/

namespace Troupe.Stage

open Troupe.Geometry
open Troupe.Number (Trigonometry)
open Troupe.Script
open Troupe.Playback
open scoped Troupe.IdPool

/-- What an effect makes its run busy with. -/
def Departure.activity [Trigonometry] (departure : Departure) (tempo : Tempo) : Activity :=
  let effect := departure.action.effect departure.planned tempo.bounds
  let finish := effect.finalPose departure.planned
  match effect with
  | .move _ _ => .tween (.new departure.planned finish tempo.moveDuration)
  | .turn _ _ => .tween (.new departure.planned finish tempo.turnDuration)
  | .show _ seconds => .bubble (.ofSeconds seconds)

/-- Why a run stops in a frame: nothing is left to do, something takes longer, or it may start no
    more effects. -/
inductive Halt where
  | finished
  | waiting
  | spent
deriving Repr, DecidableEq, Inhabited

/-- Who shows an activity has no part in what becomes of it. -/
theorem Activity.step_alike (activity : Activity) (actor other : Actor) (now : Nat)
    (bounds : Bounds) :
    (activity.step actor now bounds).1 = (activity.step other now bounds).1 ∧
      (activity.step actor now bounds).2.2 = (activity.step other now bounds).2.2 := by
  cases activity <;> exact ⟨rfl, rfl⟩

namespace Run

variable {run later : Run} {actor shown : Actor} {now started budget : Nat} {bounds : Bounds}
  {tempo : Tempo} {progress : Progress} {action : Action} {activities : List Activity}

/-! ## Carrying on -/

/-- What a run carries on with in a frame in which it starts some effects: what it is busy with
    already, and then the effects. -/
def carried [Trigonometry] (run : Run) (tempo : Tempo) (starts : List Departure) : List Activity :=
  run.activity.toList ++ starts.map (·.activity tempo)

theorem activity_begin [Trigonometry] (run : Run) (actor : Actor) (action : Action)
    (tempo : Tempo) :
    (run.begin actor (action.effect run.pose tempo.bounds) tempo).1.activity =
      some (Departure.activity ⟨action, run.pose, actor.pose⟩ tempo) := by
  cases action <;> rfl

theorem Settled.step_eq (settled : Settled run actor now bounds (later, shown, progress))
    {activity : Activity} (busy : run.activity = some activity) :
    (activity.step actor now bounds).2.2 = progress ∧
      (progress = .pending → later.activity = some (activity.step actor now bounds).1) := by
  cases settled with
  | free idle => cases idle.symm.trans busy
  | moving own stepped | arrived own stepped | showing own stepped | cleared own stepped =>
    cases own.symm.trans busy
    simp [Activity.step, stepped]

theorem Settled.exists_of_pending
    (settled : Settled run actor now bounds (later, shown, .pending)) :
    ∃ activity, run.activity = some activity := by
  cases settled with
  | moving busy | showing busy => exact ⟨_, busy⟩

theorem Settled.over (settled : Settled run actor now bounds (later, shown, .done)) :
    ∀ activity ∈ run.activity.toList, (activity.step actor now bounds).2.2 = .done :=
  fun _ busy => (settled.step_eq (Option.mem_toList.mp busy)).1

/-! ## Stopping -/

/-- Whether this is why a run stops as `later` in a frame at time `now`, in which it carries on with
    some activities and starts a number of effects. -/
def HaltsBy (later : Run) (actor : Actor) (now : Nat) (bounds : Bounds)
    (activities : List Activity) (started budget : Nat) : Halt → Prop
  | .finished => later.isFinished = true
  | .waiting =>
    ∃ activity ∈ activities.getLast?, (activity.step actor now bounds).2.2 = .pending ∧
      later.activity = some (activity.step actor now bounds).1
  | .spent => later.activity = none ∧ later.cursor.isFinished = false ∧ started = budget

/-- The three ways exclude each other by what is left of the run. -/
theorem HaltsBy.unique {halt other : Halt}
    (halts : later.HaltsBy actor now bounds activities started budget halt)
    (haltsToo : later.HaltsBy actor now bounds activities started budget other) : halt = other := by
  have left {halt : Halt} (halts : later.HaltsBy actor now bounds activities started budget halt) :
      (later.isFinished, later.activity.isSome) =
        match halt with
        | .finished => (true, false)
        | .waiting => (false, true)
        | .spent => (false, false) := by
    cases halt with
    | finished =>
      have free : later.activity.isNone = true := (Bool.and_eq_true_iff.mp halts).1
      rw [show later.isFinished = true from halts, Option.isNone_iff_eq_none.mp free]
      rfl
    | waiting =>
      obtain ⟨_, _, _, busy⟩ := halts
      simp [isFinished, busy]
    | spent =>
      obtain ⟨free, unfinished, _⟩ := halts
      simp [isFinished, free, unfinished]
  have same := (left halts).symm.trans (left haltsToo)
  cases halt <;> cases other <;> first | rfl | cases same

/-- What holds of a run after a frame: all that it carried on with is over but for the last, and the
    last as well if it is busy no more. -/
structure Progressed (later : Run) (actor : Actor) (now : Nat) (bounds : Bounds)
    (activities : List Activity) (started budget : Nat) : Prop where
  before : ∀ activity ∈ activities.dropLast, (activity.step actor now bounds).2.2 = .done
  last : later.activity = none →
    ∀ activity ∈ activities, (activity.step actor now bounds).2.2 = .done
  within : started ≤ budget
  halts : ∃ halt, later.HaltsBy actor now bounds activities started budget halt

/-- A run that waits for what it is busy with when the frame begins. -/
theorem Progressed.of_pending (settled : Settled run actor now bounds (later, shown, .pending))
    (budget : Nat) : later.Progressed actor now bounds run.activity.toList 0 budget := by
  obtain ⟨activity, busy⟩ := settled.exists_of_pending
  obtain ⟨pending, becomes⟩ := settled.step_eq busy
  rw [busy]
  refine ⟨(fun _ member => nomatch member), fun free => ?_, Nat.zero_le _, .waiting, ?_⟩
  · cases free.symm.trans (becomes rfl)
  · exact ⟨activity, rfl, pending, becomes rfl⟩

/-- A run that stops when what it was busy with is over. -/
theorem Progressed.of_done (budget : Nat)
    (settled : Settled run actor now bounds (later, shown, .done)) {cursor : Cursor}
    (stops : cursor.isFinished = true ∨ budget = 0) :
    Progressed { later with cursor } actor now bounds run.activity.toList 0 budget := by
  refine ⟨fun activity member => settled.over activity (List.mem_of_mem_dropLast member),
    fun _ => settled.over, Nat.zero_le _, ?_⟩
  cases ended : cursor.isFinished with
  | true => exact ⟨.finished, by simp [HaltsBy, isFinished, settled.activity_eq_none, ended]⟩
  | false =>
    have spent := stops.resolve_left (by simp [ended])
    exact ⟨.spent, settled.activity_eq_none, ended, spent.symm⟩

/-- What was over before an effect was started is over for the frame. -/
theorem Progressed.cons {before : List Activity} (progressed :
      later.Progressed actor now bounds activities started budget)
    (passed : ∀ activity ∈ before, (activity.step actor now bounds).2.2 = .done)
    (some : activities ≠ []) :
    later.Progressed actor now bounds (before ++ activities) (started + 1) (budget + 1) := by
  refine ⟨?_, fun free activity member => ?_, Nat.succ_le_succ progressed.within, ?_⟩
  · rw [List.dropLast_append_of_ne_nil some]
    exact List.forall_mem_append.mpr ⟨passed, progressed.before⟩
  · exact (List.mem_append.mp member).elim (passed activity) (progressed.last free activity)
  · obtain ⟨halt, halts⟩ := progressed.halts
    refine ⟨halt, ?_⟩
    cases halt with
    | finished => exact halts
    | waiting =>
      obtain ⟨activity, isLast, pending⟩ := halts
      exact ⟨activity, List.mem_getLast?_append_of_mem_getLast? isLast, pending⟩
    | spent => exact ⟨halts.1, halts.2.1, congrArg Nat.succ halts.2.2⟩

theorem Progressed.shownBy {other : Actor}
    (progressed : later.Progressed actor now bounds activities started budget) :
    later.Progressed other now bounds activities started budget := by
  have alike (activity : Activity) := activity.step_alike actor other now bounds
  obtain ⟨before, last, within, halt, halts⟩ := progressed
  simp only [fun activity => (alike activity).2] at before last
  refine ⟨before, last, within, halt, ?_⟩
  cases halt with
  | finished | spent => exact halts
  | waiting =>
    obtain ⟨activity, isLast, pending, becomes⟩ := halts
    rw [(alike activity).1] at becomes
    exact ⟨activity, isLast, (alike activity).2 ▸ pending, becomes⟩

theorem progressed_play [Trigonometry] (now : Nat) (tempo : Tempo) (budget : Nat) (run : Run)
    (actor : Actor) :
    let starts := run.departures now tempo budget actor
    (run.play now tempo budget actor).1.Progressed actor now tempo.bounds
      (run.carried tempo starts) starts.length budget := by
  -- The cases are those of `play`; each effect begins a frame of its own with one less to start.
  induction budget generalizing run actor with
  | zero =>
    have carriedOn := settled run actor now tempo.bounds
    simp only [departures, play, carried, List.map_nil, List.append_nil, List.length_nil]
    rcases done : run.settle actor now tempo.bounds with ⟨later, shown, _ | _⟩
    · exact .of_pending (done ▸ carriedOn) 0
    · exact .of_done 0 (done ▸ carriedOn) (.inr rfl)
  | succ budget ih =>
    have carriedOn := settled run actor now tempo.bounds
    unfold departures play
    rcases done : run.settle actor now tempo.bounds with ⟨later, shown, _ | _⟩
    · rw [done] at carriedOn
      simpa [carried] using Progressed.of_pending carriedOn (budget + 1)
    · rw [done] at carriedOn
      rcases asked : later.cursor.next with ⟨_ | action, cursor⟩
      · have ended := later.cursor.isFinished_next
        rw [asked] at ended
        have stopped := Progressed.of_done (budget + 1) carriedOn (.inl ended)
        simpa [carried, asked] using stopped
      · have goesOn := ih
          (({ later with cursor }).begin shown (action.effect later.pose tempo.bounds) tempo).1
          (({ later with cursor }).begin shown (action.effect later.pose tempo.bounds) tempo).2
        have busy := activity_begin { later with cursor } shown action tempo
        simp only [asked]
        simp only [carried, busy, Option.toList_some] at goesOn
        exact (goesOn.shownBy).cons carriedOn.over (List.cons_ne_nil _ _)

end Run

/-! ## Frames -/

section

variable [Trigonometry] [LawfulIdSource] {stage : Stage} {settings : Settings}

/-- The frame of a tick, before any swaps. Every run stops in exactly one of the three ways: it is
    finished, or it waits for what it carried on with last, or it is busy with nothing, has more to
    do, and has started as many effects as it may. It never starts more. The effects are those of
    the next actions of its script, and all that it carried on with is over at that time, but for
    the last. -/
theorem frame_halts_once (reachable : Reachable settings stage) (running : stage.running = true)
    (now : Nat) :
    stage.tick now = ((stage.advance now).meet).conclude ∧
      (stage.advance now).runs.map (·.actor) = stage.runs.map (·.actor) ∧
      ∀ later ∈ (stage.advance now).runs, ∃ run actor,
        stage.run? later.actor = some run ∧ stage.actor? later.actor = some actor ∧
        let starts := run.departures now stage.tempo stage.tempo.budget actor
        let carried := run.carried stage.tempo starts
        let allowed := max stage.settings.stepBudget 1
        (∃! halt, later.HaltsBy actor now stage.bounds carried starts.length allowed halt) ∧
          starts.length ≤ allowed ∧
          run.cursor.upcoming = starts.map (·.action) ++ later.cursor.upcoming ∧
          (∀ activity ∈ carried.dropLast, (activity.step actor now stage.bounds).2.2 = .done) ∧
          (later.activity = none →
            ∀ activity ∈ carried, (activity.step actor now stage.bounds).2.2 = .done) := by
  have coherent := coherent_of_reachable reachable
  refine ⟨tick_of_running running now, coherent.map_actor_advance now, fun later member => ?_⟩
  have playsNow := (coherent.advanced now).run?_of_mem member
  rw [coherent.run?_advance] at playsNow
  obtain ⟨run, plays, _⟩ := Option.map_eq_some_iff.mp playsNow
  obtain ⟨actor, shows⟩ := coherent.exists_player plays
  refine ⟨run, actor, plays, shows, ?_⟩
  intro starts carried allowed
  have becomes := (coherent.advance_of_playing now shows plays).2
  rw [coherent.run?_advance, playsNow] at becomes
  have played := run.played now stage.tempo stage.tempo.budget actor
  have progressed := run.progressed_play now stage.tempo stage.tempo.budget actor
  rw [← Option.some.inj becomes] at played progressed
  obtain ⟨halt, halts⟩ := progressed.halts
  refine ⟨⟨halt, halts, fun other haltsToo => haltsToo.unique halts⟩, progressed.within, ?_,
    progressed.before, progressed.last⟩
  rw [played.upcoming, ← run.map_action_departures]

end

/-- An actor with three turns that take no time and a walk, on a stage where it may start two
    effects in a frame. -/
def hastyWalk : Stage :=
  Stage.afterAll (.new { Settings.standard with stepBudget := 2 })
    [.choose .off, .add "cat", .append ⟨0, 1⟩ (Block.turn 0 ⟨0⟩).1,
      .append ⟨0, 1⟩ (Block.turn 0 ⟨1⟩).1, .append ⟨0, 1⟩ (Block.turn 0 ⟨2⟩).1,
      .append ⟨0, 1⟩ (Block.move 100 ⟨3⟩).1, .start 0]

theorem reachable_hastyWalk : Reachable { Settings.standard with stepBudget := 2 } hastyWalk :=
  Reachable.new.afterAll _

/-- It starts two turns in its first frame, and the third one and the walk in its second. -/
theorem hastyWalk_halts_once :
    hastyWalk.running = true ∧
      hastyWalk.runs.map (fun run => (run.activity.isSome, run.cursor.upcoming.length)) =
        [(false, 2)] ∧
      (hastyWalk.advance 0).runs.map
          (fun later => (later.activity.isSome, later.cursor.upcoming.length)) = [(true, 0)] ∧
      ∃ later ∈ (hastyWalk.advance 0).runs, ∃ run ∈ hastyWalk.runs, ∃ actor,
        let starts := run.departures 0 hastyWalk.tempo hastyWalk.tempo.budget actor
        starts.length = 2 ∧
          ∃! halt, later.HaltsBy actor 0 hastyWalk.bounds (run.carried hastyWalk.tempo starts) 2 2
            halt := by
  have running : hastyWalk.running = true := by decide +kernel
  have before : hastyWalk.runs.map (fun run => (run.activity.isSome, run.cursor.upcoming.length)) =
      [(false, 2)] := by decide +kernel
  have after : (hastyWalk.advance 0).runs.map
      (fun later => (later.activity.isSome, later.cursor.upcoming.length)) = [(true, 0)] := by
    decide +kernel
  refine ⟨running, before, after, ?_⟩
  obtain ⟨later, member, left⟩ := List.mem_map.mp (after ▸ List.mem_singleton_self (true, 0))
  obtain ⟨run, actor, plays, _, halts, _, upcoming, _⟩ :=
    (frame_halts_once reachable_hastyWalk running 0).2.2 later member
  have present := List.mem_of_find?_eq_some plays
  have had := List.mem_map_of_mem (f := fun run : Run =>
    (run.activity.isSome, run.cursor.upcoming.length)) present
  rw [before, List.mem_singleton, upcoming] at had
  have started : (run.departures 0 hastyWalk.tempo hastyWalk.tempo.budget actor).length = 2 := by
    simp only [Prod.mk.injEq, List.length_append, List.length_map] at had left
    omega
  have allowed : max hastyWalk.settings.stepBudget 1 = 2 := by decide +kernel
  rw [started, allowed] at halts
  exact ⟨later, member, run, present, actor, started, halts⟩

end Troupe.Stage
