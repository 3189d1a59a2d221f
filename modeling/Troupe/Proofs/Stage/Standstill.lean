import Troupe.Proofs.Stage.Trading
import Troupe.Proofs.Swap.Updates

/-! # A second tick at the same time

A tick goes as far as its time allows. A run that was not stopped by its budget is then at rest:
it is finished, or busy with something that takes longer and shows at once what it shows already.
Swaps do not disturb that. They hand over cursors only among runs that are busy, which do not look
at their cursors, and whoever met has met. So a second tick at the same time finds nothing to do.

* `Run.stopsOnBudget`, `isWithinBudget` — whether its budget is all that stops a run in a frame.
* `Run.Rests`, `AtRest` — what another frame leaves as it is.
* `atRest_advance`, `AtRest.meet` — a frame and its swaps lead there.
* `meet_meet`, `tick_tick` — the second swaps and the second tick.
-/

namespace Troupe.Playback

open Troupe.Geometry

theorem Tween.step_again {tween later : Tween} {now : Nat} {bounds : Bounds} {pose : Pose}
    {progress : Progress} (stepped : tween.step now bounds = (later, pose, progress)) :
    later.step now bounds = (later, pose, progress) := by
  obtain ⟨rfl, rfl, rfl⟩ := by simpa [step] using stepped
  rfl

theorem Pause.step_again {pause later : Pause} {now : Nat} {progress : Progress}
    (stepped : pause.step now = (later, progress)) : later.step now = (later, progress) := by
  obtain ⟨rfl, rfl⟩ := by simpa [step] using stepped
  rfl

end Troupe.Playback

namespace Troupe.Stage

open Troupe.Geometry
open Troupe.Number (Trigonometry)
open Troupe.Script
open Troupe.Playback
open Troupe.Swap.Encounters (WellPlaced update_again)
open scoped Troupe.IdPool

variable {now : Nat}

/-! ## One run -/

namespace Run

/-- Whether a run stops in a frame because it may start no more effects: it has started as many as
    it may, and is busy with none of them. -/
def stopsOnBudget [Trigonometry] (run : Run) (now : Nat) (tempo : Tempo) (actor : Actor) : Bool :=
  (run.begun now tempo tempo.budget actor).length = tempo.budget &&
    (run.play now tempo tempo.budget actor).1.activity.isNone

/-- Whether another frame at time `now` leaves a run and its actor as they are: it shows the pose
    that is shown already or goes on with its bubble, or it is finished. -/
inductive Rests (run : Run) (pose : Pose) (now : Nat) (bounds : Bounds) : Prop
  | moving {tween : Tween} (busy : run.activity = some (.tween tween))
      (stays : tween.step now bounds = (tween, pose, .pending))
  | showing {pause : Pause} (busy : run.activity = some (.bubble pause))
      (stays : pause.step now = (pause, .pending))
  | finished (finished : run.isFinished = true)

variable {run later : Run} {actor shown : Actor} {tempo : Tempo} {bounds : Bounds}

theorem Settled.rests (settled : Settled run actor now bounds (later, shown, .pending)) :
    later.Rests shown.pose now bounds := by
  cases settled with
  | moving _ stepped => exact .moving rfl (Tween.step_again stepped)
  | showing _ stepped => exact .showing rfl (Pause.step_again stepped)

theorem Settled.isFinished (settled : Settled run actor now bounds (later, shown, .done))
    {cursor : Cursor} (asked : later.cursor.next = (none, cursor)) :
    Run.isFinished { later with cursor } = true := by
  have ended := later.cursor.isFinished_next
  rw [asked] at ended
  simp only [Run.isFinished, settled.activity_eq_none, Option.isNone_none, Bool.true_and]
  exact ended

/-- However a frame ends for a run, unless by its budget, the run rests. -/
theorem Played.rests [Trigonometry] {budget : Nat} {actions : List Action}
    (played : Played now tempo budget run actor actions later shown)
    (within : ¬ (actions.length = budget ∧ later.activity = none)) :
    later.Rests shown.pose now tempo.bounds := by
  induction played with
  | @spent _ _ _ _ progress settled =>
    cases progress with
    | pending => exact settled.rests
    | done => exact absurd ⟨rfl, settled.activity_eq_none⟩ within
  | waiting settled => exact settled.rests
  | ended settled asked => exact .finished (settled.isFinished asked)
  | began _ _ _ ih => exact ih fun ⟨used, free⟩ => within ⟨congrArg Nat.succ used, free⟩

theorem Rests.play [Trigonometry] (tempo : Tempo)
    (rests : run.Rests actor.pose now tempo.bounds) (budget : Nat) :
    run.play now tempo budget actor = (run, actor) := by
  have waits (settles : run.settle actor now tempo.bounds = (run, actor, .pending)) :
      run.play now tempo budget actor = (run, actor) := by
    cases budget <;> simp only [Run.play, settles]
  cases rests with
  | finished finished => exact play_of_isFinished finished now tempo budget actor
  | moving busy stays | showing busy stays =>
    refine waits ?_
    simp only [settle, busy, Activity.step, stays]
    rw [← busy]

/-- A run that rests without being finished does not look at its cursor. -/
theorem Rests.with_cursor {pose : Pose} (rests : run.Rests pose now bounds)
    (unfinished : run.isFinished = false) (cursor : Cursor) :
    Rests { run with cursor } pose now bounds ∧ isFinished { run with cursor } = false := by
  cases rests with
  | finished finished => exact absurd (unfinished.symm.trans finished) Bool.false_ne_true
  | moving busy stays => exact ⟨.moving busy stays, by simp [isFinished, busy]⟩
  | showing busy stays => exact ⟨.showing busy stays, by simp [isFinished, busy]⟩

end Run

/-! ## A frame -/

section

variable [LawfulIdSource] {stage : Stage}

/-- Whether no run stops on its budget in a frame at time `now`. -/
def isWithinBudget [Trigonometry] (stage : Stage) (now : Nat) : Bool :=
  stage.runs.all fun run =>
    match stage.actor? run.actor with
    | some actor => !run.stopsOnBudget now stage.tempo actor
    | none => true

def AtRest (stage : Stage) (now : Nat) : Prop :=
  ∀ ⦃id : ActorId⦄ ⦃actor : Actor⦄ ⦃run : Run⦄, stage.actor? id = some actor →
    stage.run? id = some run → run.Rests actor.pose now stage.bounds

theorem atRest_advance [Trigonometry] (coherent : stage.Coherent)
    (within : stage.isWithinBudget now = true) : (stage.advance now).AtRest now := by
  intro id shown later showsNow playsNow
  cases plays : stage.run? id with
  | none =>
    rw [(coherent.advance_of_absent now plays).2] at playsNow
    cases playsNow
  | some run =>
    obtain ⟨actor, shows⟩ := coherent.exists_player plays
    obtain ⟨leadsTo, becomes⟩ := coherent.advance_of_playing now shows plays
    cases leadsTo.symm.trans showsNow
    cases becomes.symm.trans playsNow
    have own := List.all_eq_true.mp within run (List.mem_of_find?_eq_some plays)
    rw [actor_of_run? plays, shows] at own
    refine (run.played now stage.tempo stage.tempo.budget actor).rests fun spent => ?_
    simp [Run.stopsOnBudget, spent.1, spent.2] at own

theorem AtRest.advance [Trigonometry] (rests : stage.AtRest now) (coherent : stage.Coherent) :
    stage.advance now = stage := by
  rw [advance_eq stage now coherent.distinct coherent.once]
  have actors : stage.actors.map (playedBy now stage.tempo stage.runs) = stage.actors := by
    refine (List.map_congr_left fun actor member => ?_).trans (List.map_id _)
    cases plays : stage.run? actor.id with
    | none => exact playedBy_of_absent now stage.tempo (find?_eq_none_iff.mp plays)
    | some run =>
      have still := (rests (coherent.actor?_of_mem member) plays).play stage.tempo
      exact (playedBy_of_run now stage.tempo plays).trans (congrArg Prod.snd (still _))
  have runs : stage.runs.map (playedOn now stage.tempo stage.actors) = stage.runs := by
    refine (List.map_congr_left fun run member => ?_).trans (List.map_id _)
    obtain ⟨actor, shows, _⟩ := coherent.live member
    have still := (rests shows (coherent.run?_of_mem member)).play stage.tempo
    exact (playedOn_of_actor now stage.tempo shows).trans (congrArg Prod.fst (still _))
  rw [actors, runs]

/-! ## Its swaps -/

/-- A finished run keeps its cursor. -/
theorem handCursor_of_isFinished (coherent : stage.Coherent) {run : Run} (member : run ∈ stage.runs)
    (finished : run.isFinished = true) : stage.handCursor (trading stage.met) run = run := by
  have plays := coherent.run?_of_mem member
  have stays : trading stage.met run.actor = run.actor := by
    by_contra moved
    obtain ⟨other, playsToo, unfinished⟩ := isPlaying_of_trading_ne coherent moved
    cases plays.symm.trans playsToo
    exact absurd (unfinished.symm.trans finished) Bool.false_ne_true
  rw [handCursor, stays, cursorOf_of_run plays]

theorem AtRest.handed (rests : stage.AtRest now) (coherent : stage.Coherent) {run : Run}
    {actor : Actor} (member : run ∈ stage.runs) (shows : stage.actor? run.actor = some actor) :
    (stage.handCursor (trading stage.met) run).Rests actor.pose now stage.bounds ∧
      (stage.handCursor (trading stage.met) run).isFinished = run.isFinished := by
  have still := rests shows (coherent.run?_of_mem member)
  cases finished : run.isFinished with
  | true =>
    rw [handCursor_of_isFinished coherent member finished]
    exact ⟨still, finished⟩
  | false => exact still.with_cursor finished _

theorem AtRest.meet (rests : stage.AtRest now) (coherent : stage.Coherent) :
    stage.meet.AtRest now := by
  intro id actor run shows plays
  rw [meet_eq_traded coherent] at shows plays ⊢
  obtain ⟨before, showsBefore, rfl⟩ :=
    Option.map_eq_some_iff.mp ((actor?_traded stage _ id).symm.trans shows)
  obtain ⟨earlier, playsBefore, rfl⟩ :=
    Option.map_eq_some_iff.mp ((run?_traded stage _ id).symm.trans plays)
  have own : stage.actor? earlier.actor = some before := by
    rwa [actor_of_run? playsBefore]
  exact (rests.handed coherent (List.mem_of_find?_eq_some playsBefore) own).1

/-- Who is unfinished, and where, is the same after the swaps. -/
theorem AtRest.placed_meet (rests : stage.AtRest now) (coherent : stage.Coherent) :
    stage.meet.placed = stage.placed := by
  rw [meet_eq_traded coherent]
  change (stage.runs.map (stage.handCursor (trading stage.met))).filterMap _ = _
  rw [List.filterMap_map]
  refine List.filterMap_congr fun run member => ?_
  obtain ⟨actor, shows, _⟩ := coherent.live member
  have handed : (stage.traded (trading stage.met)).actor? run.actor =
      some (stage.handScript (trading stage.met) actor) :=
    (actor?_traded stage _ _).trans (congrArg _ shows)
  change (if (stage.handCursor (trading stage.met) run).isFinished = true then none
    else ((stage.traded (trading stage.met)).actor? run.actor).map _) = _
  rw [(rests.handed coherent member shows).2, handed, shows]
  rfl

/-! ## The encounters -/

theorem radius_ongoing (stage : Stage) : stage.ongoing.radius = stage.encounters.radius := by
  unfold ongoing
  split <;> rfl

theorem radius_tick [Trigonometry] (stage : Stage) (now : Nat) :
    (stage.tick now).encounters.radius = stage.encounters.radius := by
  cases running : stage.running with
  | false => rw [tick_of_idle running]
  | true =>
    have kept : (stage.advance now).meet.encounters.radius = stage.encounters.radius := by
      rw [meet_eq]
      exact radius_ongoing _
    rw [tick_of_running running]
    rcases conclude_cases (stage.advance now).meet with ⟨_, concludes⟩ | ⟨_, concludes⟩
    · rw [concludes]
      exact kept
    · rwa [concludes]

theorem radius_of_reachable [Trigonometry] {settings : Settings}
    (reachable : Reachable settings stage) :
    stage.encounters.radius = settings.proximityRadius := by
  induction reachable with
  | new => rfl
  | @after before call _ ih =>
    have outcome := outcome_after before call
    generalize before.after call = changed at outcome
    cases outcome with
    | refused | added | removed | selected | dragged | resized | sentHome | edited | chosen =>
      exact ih
    | started | ticked => exact (radius_tick _ _).trans ih

theorem map_fst_placed_sublist (stage : Stage) :
    (stage.placed.map (·.1)).Sublist (stage.runs.map (·.actor)) := by
  unfold placed
  induction stage.runs with
  | nil => exact .slnil
  | cons run rest ih =>
    rw [List.filterMap_cons, List.map_cons]
    split
    case h_1 => exact ih.cons _
    case h_2 entry found =>
      split at found
      case isTrue => cases found
      case isFalse =>
        obtain ⟨actor, shows, rfl⟩ := Option.map_eq_some_iff.mp found
        rw [List.map_cons, id_of_actor? shows]
        exact ih.cons_cons _

theorem wellPlaced_placed (coherent : stage.Coherent)
    (finite : ∀ actor ∈ stage.actors, actor.pose.position.IsFinite) :
    WellPlaced stage.placed where
  distinct := coherent.once.sublist stage.map_fst_placed_sublist
  finite := by
    intro entry listed
    obtain ⟨run, _, _, actor, shows, rfl⟩ := mem_placed_iff.mp listed
    exact finite actor (List.mem_of_find?_eq_some shows)

/-- Once the pairs of a frame have met, nobody meets in a frame that places everybody alike. -/
theorem meet_meet (rests : stage.AtRest now) (coherent : stage.Coherent)
    (number : stage.encounters.radius.isNaN = false) (wellPlaced : WellPlaced stage.placed) :
    stage.meet.meet = stage.meet := by
  have placed := rests.placed_meet coherent
  have same := meet_eq stage
  have flags : stage.meet.animating = stage.animating ∧
      stage.meet.settings = stage.settings ∧ stage.meet.encounters = stage.ongoing := by
    rw [same]
    exact ⟨rfl, rfl, rfl⟩
  obtain ⟨animating, settings, encounters⟩ := flags
  have again : stage.meet.met = [] ∧ stage.meet.ongoing = stage.meet.encounters := by
    unfold met
    rw [ongoing, animating, settings, encounters, placed, ongoing]
    split
    · rw [update_again number wellPlaced]
      exact ⟨rfl, rfl⟩
    · exact ⟨rfl, rfl⟩
  rw [meet_eq_foldl, again.1, again.2]
  rfl

/-! ## The second tick -/

/-- A second tick at the same time changes nothing, and tells alike whether the performance
    goes on. -/
theorem tick_tick [Trigonometry] {settings : Settings} (reachable : Reachable settings stage)
    (number : settings.proximityRadius.isNaN = false) (within : stage.isWithinBudget now = true)
    (finite : ∀ actor ∈ (stage.tick now).actors, actor.pose.position.IsFinite) :
    (stage.tick now).tick now = stage.tick now := by
  cases running : stage.running with
  | false => rw [tick_of_idle running, tick_of_idle running]
  | true =>
    have coherent := coherent_of_reachable reachable
    have advanced := coherent.advanced now
    have rests := atRest_advance coherent within
    have standing : ∀ actor ∈ (stage.advance now).actors, actor.pose.position.IsFinite := by
      have positions := map_actors_meet (·.pose.position) (fun _ _ => rfl) (stage.advance now)
      rw [tick_of_running running, conclude_actors] at finite
      refine List.forall_mem_map.mp ?_
      rw [← positions]
      exact List.forall_mem_map.mpr finite
    have known : (stage.advance now).encounters.radius.isNaN = false :=
      (radius_of_reachable reachable).symm ▸ number
    have met := meet_meet rests advanced known (wellPlaced_placed advanced standing)
    have frame := (rests.meet advanced).advance advanced.swapped
    have status := (status_meet_advance stage now).1.trans running
    rw [tick_of_running running]
    rcases conclude_cases (stage.advance now).meet with ⟨_, concludes⟩ | ⟨_, concludes⟩
    · rw [concludes]
      exact tick_of_idle rfl now
    · rw [concludes, tick_of_running status, frame, met, concludes]

end

/-- The two actors of `meetingPair` swap what is left of their scripts, once. -/
theorem meetingPair_tick_tick :
    meetingPair.running = true ∧
      (meetingPair.advance 250000000).met = [(⟨0, 1⟩, ⟨1, 1⟩)] ∧
      meetingPair.isWithinBudget 250000000 = true ∧
      (meetingPair.tick 250000000).running = true ∧
      (meetingPair.tick 250000000).tick 250000000 = meetingPair.tick 250000000 := by
  have within : meetingPair.isWithinBudget 250000000 = true := by decide +kernel
  refine ⟨by decide +kernel, by decide +kernel, within, by decide +kernel, ?_⟩
  have finite : ∀ actor ∈ (meetingPair.tick 250000000).actors, actor.pose.position.IsFinite := by
    unfold Point.IsFinite
    decide +kernel
  exact tick_tick (reachable_facingPair.after _) (by decide +kernel) within finite

end Troupe.Stage
