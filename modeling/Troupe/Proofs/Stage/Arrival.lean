import Troupe.Number.Angle
import Troupe.Proofs.Script.Projection
import Troupe.Proofs.Stage.Coherence

/-! # A performance ends where looking ahead says

A run is on its way to a pose: what its cursor has left leads there from the pose that the run
has reached, and that pose is shown, or it is where the tween in progress ends. A frame keeps
this, whatever time it is played at and however many effects it starts. A finished run has
nothing left, so its actor has arrived.

Without swaps during the performance the frames of a run are all that happens to its actor.
What was swapped before the start is part of the pose the run is on its way to.
-/

namespace Troupe.Stage

open Troupe.Geometry
open Troupe.Number (Trigonometry)
open Troupe.Script
open Troupe.Playback
open scoped Troupe.IdPool

/-! ## One run -/

theorem finish_of_step {tween later : Tween} {now : Nat} {bounds : Bounds} {pose : Pose}
    {progress : Progress} (stepped : tween.step now bounds = (later, pose, progress)) :
    later.finish = tween.finish := by
  obtain ⟨rfl, -, -⟩ := by simpa [Tween.step] using stepped
  rfl

/-- The last pose that a tween shows is the one it leads to, moved into the bounds in force. -/
theorem clamped_of_step_done {tween later : Tween} {now : Nat} {bounds : Bounds} {pose : Pose}
    (stepped : tween.step now bounds = (later, pose, .done)) :
    pose = tween.finish.movedTo (bounds.clamp tween.finish.position) := by
  simp only [Tween.step, Prod.mk.injEq] at stepped
  obtain ⟨-, shows, ends⟩ := stepped
  have covered : 1 ≤ tween.fraction (now - tween.startedAt.getD now) := by
    by_cases covered : 1 ≤ tween.fraction (now - tween.startedAt.getD now)
    · exact covered
    · simp [covered] at ends
  rw [← shows, Tween.poseAt, if_pos covered]

theorem pose_of_step_done {tween later : Tween} {now : Nat} {bounds : Bounds} {pose : Pose}
    (stepped : tween.step now bounds = (later, pose, .done))
    (inside : bounds.Keeps tween.finish.position) : pose = tween.finish :=
  (clamped_of_step_done stepped).trans (Pose.movedTo_clamp inside)

section

variable [Trigonometry]

namespace Run

structure OnTrack (run : Run) (actor : Actor) (bounds : Bounds) (target : Pose) : Prop where
  leads : run.cursor.finalPose run.pose bounds = target
  inside : bounds.Keeps run.pose.position
  shows : match run.activity with
    | some (.tween tween) => tween.finish = run.pose
    | _ => actor.pose = run.pose

variable {run later : Run} {actor shown : Actor} {now : Nat} {bounds : Bounds} {target : Pose}
  {progress : Progress}

theorem OnTrack.settled (onTrack : run.OnTrack actor bounds target)
    (settled : Settled run actor now bounds (later, shown, progress)) :
    later.OnTrack shown bounds target := by
  obtain ⟨leads, inside, shows⟩ := onTrack
  cases settled with
  | free => exact ⟨leads, inside, shows⟩
  | moving busy stepped =>
    simp only [busy] at shows
    exact ⟨leads, inside, (finish_of_step stepped).trans shows⟩
  | arrived busy stepped =>
    simp only [busy] at shows
    -- The tween ends inside the bounds, so clamping its last pose changes nothing.
    have kept : bounds.Keeps _ := shows ▸ inside
    exact ⟨leads, inside, (pose_of_step_done stepped kept).trans shows⟩
  | showing busy =>
    simp only [busy] at shows
    exact ⟨leads, inside, shows⟩
  | cleared busy =>
    simp only [busy] at shows
    exact ⟨leads, inside, shows⟩

/-- The next effect starts from the pose that is shown, because nothing is going on. -/
theorem OnTrack.begun {tempo : Tempo} {action : Action} {cursor : Cursor}
    (onTrack : run.OnTrack actor tempo.bounds target) (free : run.activity = none)
    (asked : run.cursor.next = (some action, cursor)) :
    let started := begin { run with cursor } actor (action.effect run.pose tempo.bounds) tempo
    started.1.OnTrack started.2 tempo.bounds target := by
  obtain ⟨leads, inside, shows⟩ := onTrack
  simp only [free] at shows
  rw [Cursor.finalPose_eq_foldl, Cursor.upcoming_of_next_some asked, List.foldl_cons,
    ← Cursor.finalPose_eq_foldl] at leads
  have stays := action.keeps_lead inside
  intro started
  -- The effect's final pose is the one that looking ahead goes on from.
  have reached : started.1.pose = action.lead tempo.bounds run.pose := by
    rw [show started.1 = _ from begin_run _ _ _ _]
    rfl
  refine ⟨?leads, reached ▸ stays, ?shows⟩
  case leads =>
    rw [reached, show started.1 = _ from begin_run _ _ _ _]
    exact leads
  case shows =>
    cases action with
    | walk | walkTo | rotate => rfl
    | «show» => exact shows

theorem OnTrack.played {tempo : Tempo} {budget : Nat} {actions : List Action}
    (onTrack : run.OnTrack actor tempo.bounds target)
    (played : Played now tempo budget run actor actions later shown) :
    later.OnTrack shown tempo.bounds target := by
  induction played with
  | spent settled | waiting settled => exact onTrack.settled settled
  | ended settled asked =>
    obtain ⟨leads, inside, shows⟩ := onTrack.settled settled
    refine ⟨?_, inside, shows⟩
    obtain ⟨nothing, rfl⟩ := Cursor.upcoming_of_next_none asked
    rw [Cursor.finalPose_eq_foldl, nothing] at leads
    rw [Cursor.finalPose_eq_foldl, Cursor.upcoming_done]
    exact leads
  | began settled asked _ ih =>
    exact ih ((onTrack.settled settled).begun settled.activity_eq_none asked)

theorem OnTrack.arrived (onTrack : run.OnTrack actor bounds target)
    (finished : run.isFinished = true) : actor.pose = target := by
  obtain ⟨leads, _, shows⟩ := onTrack
  simp only [Run.isFinished, Bool.and_eq_true, Option.isNone_iff_eq_none] at finished
  simp only [finished.1] at shows
  rw [Cursor.finalPose_eq_foldl, Cursor.upcoming_of_isFinished finished.2] at leads
  exact shows.trans leads

end Run

/-- A run starts on its way to where its script leads from where the actor stands, or from
    where its walk to the start of the script ends. -/
theorem Part.onTrack (part : Part) {actor : Actor} {bounds : Bounds} (duration : Nat)
    (stands : actor.pose = part.actor.pose) (inside : bounds.Keeps part.actor.pose.position)
    (walks : ∀ pose, part.handOff = some pose → bounds.Keeps pose.position) :
    (part.run duration).OnTrack actor bounds
      (projectedPose part.script (part.handOff.getD part.actor.pose) bounds) := by
  obtain ⟨owner, script, handOff⟩ := part
  cases handOff with
  | none => exact ⟨rfl, inside, stands⟩
  | some pose => exact ⟨rfl, walks pose rfl, rfl⟩

/-! ## One actor of the performance -/

variable [LawfulIdSource] {stage : Stage} {actor : Actor} {target : Pose}

/-- Where an actor of a performance is: its run is on its way to a pose, or the performance is
    over and the actor is there. Nothing but its pose and its message has changed. -/
inductive Underway (stage : Stage) (actor : Actor) (target : Pose) : Prop
  | playing {pose : Pose} {message : Message} {run : Run} (running : stage.running = true)
      (shows : stage.actor? actor.id = some { actor with pose, message })
      (plays : stage.run? actor.id = some run)
      (onTrack : run.OnTrack { actor with pose, message } stage.bounds target)
  | ended {message : Message} (idle : stage.running = false)
      (shows : stage.actor? actor.id = some { actor with pose := target, message })

theorem Underway.tick (underway : stage.Underway actor target) (coherent : stage.Coherent)
    (apart : stage.settings.choreography.swapsClose = false) (now : Nat) :
    (stage.tick now).Underway actor target := by
  cases underway with
  | ended idle shows =>
    rw [tick_of_idle idle]
    exact .ended idle shows
  | playing running shows plays onTrack =>
    obtain ⟨later, shown, played, showsNow, playsNow⟩ :=
      coherent.advance_of_run now shows plays
    have arriving := onTrack.played played
    rw [played.actor_eq] at showsNow arriving
    rw [tick_of_not_swapsClose running apart]
    rcases conclude_cases (stage.advance now) with ⟨finished, concludes⟩ | ⟨_, concludes⟩
    · rw [concludes]
      -- Every run is finished, this one included, so nothing is left to play.
      have done := List.all_eq_true.mp finished later (List.mem_of_find?_eq_some playsNow)
      have arrived : shown.pose = target := arriving.arrived done
      rw [arrived] at showsNow
      exact .ended rfl showsNow
    · rw [concludes]
      exact .playing running showsNow playsNow arriving

theorem tick_of_bystander (coherent : stage.Coherent)
    (apart : stage.settings.choreography.swapsClose = false) (now : Nat) {id : ActorId}
    (absent : stage.run? id = none) :
    (stage.tick now).actor? id = stage.actor? id ∧ (stage.tick now).run? id = none := by
  cases running : stage.running with
  | false => simp only [tick_of_idle running, absent, and_self]
  | true =>
    have frame := coherent.advance_of_absent now absent
    rw [tick_of_not_swapsClose running apart]
    rcases conclude_cases (stage.advance now) with ⟨_, concludes⟩ | ⟨_, concludes⟩
    · rw [concludes]
      exact ⟨frame.1, rfl⟩
    · rw [concludes]
      exact frame

/-! ## The whole performance -/

theorem Underway.ticks (underway : stage.Underway actor target) (coherent : stage.Coherent)
    (apart : stage.settings.choreography.swapsClose = false) (ticks : List Nat) :
    (ticks.foldl Stage.tick stage).Underway actor target := by
  induction ticks generalizing stage with
  | nil => exact underway
  | cons now rest ih =>
    refine ih (underway.tick coherent apart now) (coherent.ticked now) ?_
    rw [tick_settings]
    exact apart

theorem ticks_of_bystander (coherent : stage.Coherent)
    (apart : stage.settings.choreography.swapsClose = false) (ticks : List Nat) {id : ActorId}
    (absent : stage.run? id = none) :
    (ticks.foldl Stage.tick stage).actor? id = stage.actor? id := by
  induction ticks generalizing stage with
  | nil => rfl
  | cons now rest ih =>
    have first := tick_of_bystander coherent apart now absent
    rw [List.foldl_cons, ih (coherent.ticked now) (by rw [tick_settings]; exact apart) first.2,
      first.1]

theorem underway_launch (coherent : stage.Coherent) {i : Nat} {actor origin : Actor}
    (member : partOf stage.settings stage.cast i actor origin ∈ stage.currentLineup.parts)
    (inside : stage.bounds.Keeps origin.pose.position) :
    (stage.launch stage.currentLineup).Underway { actor with script := origin.script }
      (projectedPose origin.script
        ((partOf stage.settings stage.cast i actor origin).handOff.getD actor.pose)
        stage.bounds) := by
  obtain ⟨shows, plays⟩ := launch_of_part coherent.distinct coherent.listed member
  refine .playing rfl shows plays (Part.onTrack _ _ rfl ?_ ?_)
  · exact coherent.inside _ (List.mem_of_find?_eq_some (actor_of_part coherent.distinct member))
  · intro pose walks
    obtain ⟨_, rfl⟩ := by simpa [partOf] using walks
    exact keeps_projectedPose inside origin.script

theorem projectedPose_partOf {i : Nat} {actor origin : Actor}
    (member : partOf stage.settings stage.cast i actor origin ∈ stage.currentLineup.parts) :
    projectedPose origin.script
        ((partOf stage.settings stage.cast i actor origin).handOff.getD actor.pose) stage.bounds =
      if (castPlan stage.settings stage.cast).involves i then
        projectedPose origin.script
          ⟨(projectedPose origin.script origin.pose stage.bounds).position,
            actor.pose.rotation⟩ stage.bounds
      else projectedPose actor.script actor.pose stage.bounds := by
  by_cases crosses : (castPlan stage.settings stage.cast).involves i = true
  · have walks : (partOf stage.settings stage.cast i actor origin).handOff =
        some ⟨(destination stage.settings origin).position, actor.pose.rotation⟩ :=
      if_pos crosses
    rw [walks, if_pos crosses]
    rfl
  · have stays : (partOf stage.settings stage.cast i actor origin).handOff = none :=
      if_neg crosses
    have own : origin.script = actor.script :=
      script_of_handOff_none stage.settings stage.cast member stays
    rw [stays, if_neg crosses, own]
    rfl

/-- A performance without swaps on the way ends where looking ahead says: an actor outside all
    crossings where its own script leads it, any other where the script that came to it leads
    from the place that the script would have led its first actor to, under the actor's own
    heading. All others are as they were. -/
theorem ends_at_projection {settings : Settings} {now actors swaps : Nat} {ticks : List Nat}
    (reachable : Reachable settings stage)
    (mode : stage.settings.choreography = .off ∨ stage.settings.choreography = .predictive)
    (starts : (stage.start now).1 = .started actors swaps)
    (ends : (ticks.foldl Stage.tick (stage.start now).2).running = false) :
    let plan := castPlan stage.settings stage.cast
    let order := plan.apply (List.range stage.cast.length)
    let final := ticks.foldl Stage.tick (stage.start now).2
    order.Perm (List.range stage.cast.length) ∧
      (stage.settings.choreography = .off → order = List.range stage.cast.length) ∧
      (∀ i (actor : Actor), stage.cast[i]? = some actor → ∃ source origin message,
        order[i]? = some source ∧ stage.cast[source]? = some origin ∧
          final.actor? actor.id = some { actor with
            pose :=
              if plan.involves i then
                projectedPose origin.script
                  ⟨(projectedPose origin.script origin.pose stage.bounds).position,
                    actor.pose.rotation⟩ stage.bounds
              else projectedPose actor.script actor.pose stage.bounds
            message
            script := origin.script }) ∧
      (∀ actor ∈ stage.actors, actor.isScripted = false →
        final.actor? actor.id = some actor) ∧
      final.order = stage.order ∧ final.actors.map (·.id) = stage.actors.map (·.id) := by
  intro plan order final
  have coherent := coherent_of_reachable reachable
  have apart : stage.settings.choreography.swapsClose = false := by
    rcases mode with mode | mode <;> rw [mode] <;> rfl
  have started := start_of_started starts
  -- The first frame belongs to the start, so all frames are those of the launched stage.
  have final_eq : final = (now :: ticks).foldl Stage.tick (stage.launch stage.currentLineup) := by
    rw [List.foldl_cons, ← started]
  have sameIds : final.actors.map (·.id) = stage.actors.map (·.id) := by
    rw [final_eq, coherent.launched.map_id_ticks, coherent.map_id_launch]
  refine ⟨plan.apply_perm _, ?unswapped, ?participants, ?others, ?order, sameIds⟩
  case unswapped =>
    intro off
    simp only [order, plan, castPlan, crossingPlan, off]
    rfl
  case participants =>
    intro i actor placed
    obtain ⟨source, origin, comes, at_, part⟩ := part_of_actor stage.settings stage.cast placed
    have member := List.mem_of_getElem? part
    have listed := (List.mem_filter.mp (List.mem_of_getElem? at_)).1
    have originInside := coherent.inside origin (mem_actors_of_mem_roster listed)
    have arrived := (underway_launch coherent member originInside).ticks coherent.launched apart
      (now :: ticks)
    rw [← final_eq, projectedPose_partOf member] at arrived
    cases arrived with
    | playing running => exact absurd running (by simp [final, ends])
    | @ended message _ shows => exact ⟨source, origin, message, comes, at_, shows⟩
  case others =>
    intro actor member silent
    obtain ⟨shows, absent⟩ := launch_of_unscripted coherent.distinct member silent
    rw [final_eq, ticks_of_bystander coherent.launched apart _ absent, shows]
  case order =>
    have ended : final.Coherent := final_eq ▸ coherent.launched.ticks (now :: ticks)
    rw [ended.listed, coherent.listed, sameIds]

end

/-- Two actors that stand side by side and are told to walk across each other's way. -/
def crossingPair : Stage :=
  Stage.afterAll (.new .standard)
    [.add "cat", .add "dog",
      .append ⟨0, 1⟩ (Block.goTo 200 100 ⟨0⟩).1, .append ⟨1, 1⟩ (Block.goTo 0 100 ⟨1⟩).1]

theorem reachable_crossingPair : Reachable .standard crossingPair :=
  Reachable.new.afterAll _

/-- The two walk side by side instead, each with the other's script. -/
theorem crossingPair_ends_at_projection :
    let first := crossingPair.cast.head (by decide +kernel)
    let final := [500000000].foldl Stage.tick (crossingPair.start 0).2
    (crossingPair.start 0).1 = .started 2 1 ∧ final.running = false ∧
      (castPlan crossingPair.settings crossingPair.cast).involves 0 = true ∧
      ∃ source origin message,
        ((castPlan crossingPair.settings crossingPair.cast).apply
          (List.range crossingPair.cast.length))[0]? = some source ∧
        crossingPair.cast[source]? = some origin ∧
        final.actor? first.id = some { first with
          pose := projectedPose origin.script
            ⟨(projectedPose origin.script origin.pose crossingPair.bounds).position,
              first.pose.rotation⟩ crossingPair.bounds
          message
          script := origin.script } := by
  have starts : (crossingPair.start 0).1 = .started 2 1 := by decide +kernel
  have ends : ([500000000].foldl Stage.tick (crossingPair.start 0).2).running = false := by
    decide +kernel
  have crosses : (castPlan crossingPair.settings crossingPair.cast).involves 0 = true := by
    decide +kernel
  obtain ⟨-, -, participants, -, -⟩ :=
    ends_at_projection reachable_crossingPair (.inr rfl) starts ends
  have arrives := participants 0 (crossingPair.cast.head (by decide +kernel)) (by rfl)
  simp only [crosses, if_true] at arrives
  exact ⟨starts, ends, crosses, arrives⟩

end Troupe.Stage
