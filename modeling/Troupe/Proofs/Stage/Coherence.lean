import Troupe.Proofs.Stage.Frame
import Troupe.Proofs.Stage.Lineup

/-! # What holds of every stage that calls lead to

The order of creation lists the identities of the actors there are, and these are the identities
in use, so they tell actors apart. The runs of a performance belong to actors of the stage, in
their order. Every actor stands inside the bounds that are in force, and without a performance
there are no runs.

Most calls change actors in place, and `Coherent.of_frame` covers all of those at once. Only
a new actor, an actor that leaves and the start of a performance need more.
-/

namespace Troupe.Stage

open Troupe.Geometry
open Troupe.Number (Trigonometry)
open Troupe.Script (Block)

variable [LawfulIdSource]

/-! ## The invariant -/

structure Coherent (stage : Stage) : Prop where
  listed : stage.order = stage.actors.map (·.id)
  issued : ∃ made, IdSource.Issued made stage.order stage.ids
  casting : (stage.runs.map (·.actor)).Sublist (stage.actors.map (·.id))
  inside : ∀ actor ∈ stage.actors, stage.bounds.Keeps actor.pose.position
  idle : stage.running = false → stage.runs = []

namespace Coherent

variable {stage changed : Stage}

theorem distinct (coherent : stage.Coherent) : (stage.actors.map (·.id)).Nodup := by
  obtain ⟨_, issued⟩ := coherent.issued
  exact coherent.listed ▸ issued.nodup_live

theorem roster_eq (coherent : stage.Coherent) : stage.roster = stage.actors :=
  Stage.roster_eq coherent.distinct coherent.listed

theorem once (coherent : stage.Coherent) : (stage.runs.map (·.actor)).Nodup :=
  coherent.distinct.sublist coherent.casting

theorem actor?_of_mem (coherent : stage.Coherent) {actor : Actor} (member : actor ∈ stage.actors) :
    stage.actor? actor.id = some actor :=
  (find?_eq_some_iff coherent.distinct).mpr ⟨member, rfl⟩

theorem run?_of_mem (coherent : stage.Coherent) {run : Run} (member : run ∈ stage.runs) :
    stage.run? run.actor = some run :=
  (find?_eq_some_iff coherent.once).mpr ⟨member, rfl⟩

theorem live (coherent : stage.Coherent) {run : Run} (member : run ∈ stage.runs) :
    ∃ actor, stage.actor? run.actor = some actor ∧ actor.id = run.actor :=
  exists_of_mem_keys (coherent.casting.subset (List.mem_map_of_mem member))

theorem exists_player (coherent : stage.Coherent) {id : ActorId} {run : Run}
    (plays : stage.run? id = some run) : ∃ actor, stage.actor? id = some actor := by
  obtain ⟨actor, shows, _⟩ := coherent.live (List.mem_of_find?_eq_some plays)
  exact ⟨actor, actor_of_run? plays ▸ shows⟩

/-- A change of actors in place that leaves them inside the bounds. -/
theorem of_frame (coherent : stage.Coherent)
    (sameIds : changed.actors.map (·.id) = stage.actors.map (·.id))
    (same : changed.order = stage.order ∧ changed.ids = stage.ids)
    (casting : (changed.runs.map (·.actor)).Sublist (stage.actors.map (·.id)))
    (inside : ∀ actor ∈ changed.actors, changed.bounds.Keeps actor.pose.position)
    (idle : changed.running = false → changed.runs = []) : changed.Coherent := by
  obtain ⟨sameOrder, samePool⟩ := same
  exact {
    listed := by rw [sameOrder, sameIds, coherent.listed]
    issued := by rw [sameOrder, samePool]; exact coherent.issued
    casting := sameIds ▸ casting
    inside
    idle }

theorem of_map (coherent : stage.Coherent) {change : Actor → Actor}
    (actors : changed.actors = stage.actors.map change)
    (keepsId : ∀ actor, (change actor).id = actor.id)
    (rest : changed.order = stage.order ∧ changed.ids = stage.ids ∧
      changed.runs = stage.runs ∧ changed.running = stage.running)
    (inside : ∀ actor ∈ stage.actors, changed.bounds.Keeps (change actor).pose.position) :
    changed.Coherent := by
  obtain ⟨sameOrder, samePool, sameRuns, sameRunning⟩ := rest
  refine coherent.of_frame ?_ ⟨sameOrder, samePool⟩ (sameRuns ▸ coherent.casting) ?_ ?_
  · simp [actors, Function.comp_def, keepsId]
  · rw [actors]
    exact List.forall_mem_map.mpr inside
  · rw [sameRuns, sameRunning]
    exact coherent.idle

/-! ## Actors that come and go -/

theorem added (coherent : stage.Coherent) (template : Template) :
    Coherent { stage with
      actors := stage.actors ++ [stage.newcomer template]
      order := stage.order ++ [(IdSource.take stage.ids).1]
      ids := (IdSource.take stage.ids).2
      selected := some (IdSource.take stage.ids).1 } := by
  obtain ⟨_, issued⟩ := coherent.issued
  exact {
    listed := by rw [coherent.listed, List.map_append]; rfl
    issued := ⟨_, issued.taken⟩
    casting := by
      rw [List.map_append]
      exact coherent.casting.trans (List.sublist_append_left _ _)
    inside := by
      intro actor member
      rcases List.mem_append.mp member with old | new
      · exact coherent.inside actor old
      · rw [List.mem_singleton.mp new]
        exact stage.bounds.keeps_clamp _
    idle := coherent.idle }

theorem removed (coherent : stage.Coherent) {id : ActorId} {actor : Actor}
    {selected : Option ActorId} (live : stage.actor? id = some actor) :
    Coherent { stage with
      actors := stage.actors.filter (·.id != id)
      order := stage.order.filter (· != id)
      ids := IdSource.giveBack stage.ids id
      runs := stage.runs.filter (·.actor != id)
      selected } := by
  obtain ⟨_, issued⟩ := coherent.issued
  have inUse : id ∈ stage.order := by
    obtain ⟨member, rfl⟩ := (find?_eq_some_iff coherent.distinct).mp live
    exact coherent.listed ▸ List.mem_map_of_mem member
  exact {
    listed := by simp [coherent.listed, List.filter_map, Function.comp_def]
    issued := ⟨_, issued.givenBack inUse⟩
    casting := by
      have filtered := coherent.casting.filter (· != id)
      simpa [List.filter_map, Function.comp_def] using filtered
    inside := fun actor present => coherent.inside actor (List.mem_filter.mp present).1
    idle := fun stopped => by simp [coherent.idle stopped] }

/-! ## Performances -/

section

variable [Trigonometry]

theorem map_id_launch (coherent : stage.Coherent) :
    (stage.launch stage.currentLineup).actors.map (·.id) = stage.actors.map (·.id) := by
  rw [launch_eq coherent.distinct]
  simp [Function.comp_def, launched_id]

theorem launched (coherent : stage.Coherent) :
    (stage.launch stage.currentLineup).Coherent := by
  have ids := coherent.map_id_launch
  rw [launch_eq coherent.distinct] at ids ⊢
  refine coherent.of_frame ids ⟨rfl, rfl⟩ ?casting ?inside (fun stopped => nomatch stopped)
  case casting =>
    have played : stage.currentLineup.parts.map (·.actor.id) = stage.cast.map (·.id) := by
      rw [← map_actor_parts stage.settings stage.cast, List.map_map]
      rfl
    rw [List.map_map]
    rw [← coherent.roster_eq]
    exact played ▸ List.filter_sublist.map Actor.id
  case inside =>
    refine List.forall_mem_map.mpr fun actor member => ?_
    rw [launched_eq]
    exact coherent.inside actor member

theorem map_id_advance (coherent : stage.Coherent) (now : Nat) :
    (stage.advance now).actors.map (·.id) = stage.actors.map (·.id) := by
  rw [advance_eq stage now coherent.distinct coherent.once]
  simp [Function.comp_def, playedBy_id]

theorem map_actor_advance (coherent : stage.Coherent) (now : Nat) :
    (stage.advance now).runs.map (·.actor) = stage.runs.map (·.actor) := by
  rw [advance_eq stage now coherent.distinct coherent.once]
  simp [Function.comp_def, playedOn_actor]

theorem advanced (coherent : stage.Coherent) (now : Nat) : (stage.advance now).Coherent := by
  have ids := coherent.map_id_advance now
  have owners := coherent.map_actor_advance now
  rw [advance_eq stage now coherent.distinct coherent.once] at ids owners ⊢
  refine coherent.of_frame ids ⟨rfl, rfl⟩ (owners ▸ coherent.casting) ?inside ?idle
  case inside =>
    refine List.forall_mem_map.mpr fun actor member => ?_
    have before := coherent.inside actor member
    unfold playedBy
    split
    case h_1 run _ => exact (run.played now stage.tempo stage.tempo.budget actor).keeps before
    case h_2 => exact before
  case idle => exact fun stopped => by simp [coherent.idle stopped]

theorem actor?_advance (coherent : stage.Coherent) (now : Nat) (id : ActorId) :
    (stage.advance now).actor? id =
      (stage.actor? id).map (playedBy now stage.tempo stage.runs) := by
  rw [advance_eq stage now coherent.distinct coherent.once]
  exact find?_map_of_key (playedBy_id now stage.tempo stage.runs) id

theorem run?_advance (coherent : stage.Coherent) (now : Nat) (id : ActorId) :
    (stage.advance now).run? id =
      (stage.run? id).map (playedOn now stage.tempo stage.actors) := by
  rw [advance_eq stage now coherent.distinct coherent.once]
  exact find?_map_of_key (playedOn_actor now stage.tempo stage.actors) id

/-- A frame, as an actor with a run sees it. -/
theorem advance_of_playing (coherent : stage.Coherent) (now : Nat) {id : ActorId} {actor : Actor}
    {run : Run} (shows : stage.actor? id = some actor) (plays : stage.run? id = some run) :
    (stage.advance now).actor? id = some (run.play now stage.tempo stage.tempo.budget actor).2 ∧
      (stage.advance now).run? id = some (run.play now stage.tempo stage.tempo.budget actor).1 := by
  rw [coherent.actor?_advance, coherent.run?_advance, shows, plays, Option.map_some,
    Option.map_some, playedBy_of_run now stage.tempo (id_of_actor? shows ▸ plays),
    playedOn_of_actor now stage.tempo (actor_of_run? plays ▸ shows)]
  exact ⟨rfl, rfl⟩

theorem advance_of_run (coherent : stage.Coherent) (now : Nat) {id : ActorId} {actor : Actor}
    {run : Run} (shows : stage.actor? id = some actor) (plays : stage.run? id = some run) :
    ∃ later shown,
      run.Played now stage.tempo stage.tempo.budget actor
        (run.begun now stage.tempo stage.tempo.budget actor) later shown ∧
      (stage.advance now).actor? id = some shown ∧ (stage.advance now).run? id = some later :=
  ⟨_, _, run.played now stage.tempo stage.tempo.budget actor,
    coherent.advance_of_playing now shows plays⟩

theorem advance_of_absent (coherent : stage.Coherent) (now : Nat) {id : ActorId}
    (absent : stage.run? id = none) :
    (stage.advance now).actor? id = stage.actor? id ∧ (stage.advance now).run? id = none := by
  rw [coherent.actor?_advance, coherent.run?_advance, absent, Option.map_none]
  refine ⟨?_, rfl⟩
  cases shows : stage.actor? id with
  | none => rfl
  | some actor =>
    have nobody := find?_eq_none_iff.mp absent
    rw [← id_of_actor? shows] at nobody
    rw [Option.map_some, playedBy_of_absent now stage.tempo nobody]

end

theorem swapped (coherent : stage.Coherent) : stage.meet.Coherent := by
  have runActors := map_runs_meet (·.actor) (fun _ _ => rfl) stage
  refine coherent.of_frame ?ids ?pool (runActors ▸ coherent.casting) ?inside ?idle
  case ids => exact map_actors_meet (·.id) (fun _ _ => rfl) stage
  case pool => rw [meet_eq]; exact ⟨rfl, rfl⟩
  case inside =>
    have positions := map_actors_meet (·.pose.position) (fun _ _ => rfl) stage
    have keeps := List.forall_mem_map.mpr coherent.inside
    rw [meet_eq]
    rw [← positions] at keeps
    exact List.forall_mem_map.mp keeps
  case idle =>
    intro stopped
    rw [meet_eq] at stopped
    rw [coherent.idle stopped] at runActors
    exact List.map_eq_nil_iff.mp runActors

theorem concluded (coherent : stage.Coherent) : stage.conclude.Coherent := by
  rcases conclude_cases stage with ⟨_, concludes⟩ | ⟨_, concludes⟩
  · rw [concludes]
    exact coherent.of_frame rfl ⟨rfl, rfl⟩ (List.nil_sublist _) coherent.inside fun _ => rfl
  · rw [concludes]
    exact coherent

variable [Trigonometry]

theorem ticked (coherent : stage.Coherent) (now : Nat) : (stage.tick now).Coherent := by
  cases running : stage.running with
  | true =>
    rw [tick_of_running running]
    exact (coherent.advanced now).swapped.concluded
  | false => rwa [tick_of_idle running]

theorem ticks (coherent : stage.Coherent) (ticks : List Nat) :
    (ticks.foldl tick stage).Coherent := by
  induction ticks generalizing stage with
  | nil => exact coherent
  | cons now rest ih => exact ih (coherent.ticked now)

theorem map_id_tick (coherent : stage.Coherent) (now : Nat) :
    (stage.tick now).actors.map (·.id) = stage.actors.map (·.id) := by
  cases running : stage.running with
  | true =>
    rw [tick_of_running running, conclude_actors, map_actors_meet (·.id) fun _ _ => rfl]
    exact coherent.map_id_advance now
  | false => rw [tick_of_idle running]

theorem map_id_ticks (coherent : stage.Coherent) (ticks : List Nat) :
    (ticks.foldl tick stage).actors.map (·.id) = stage.actors.map (·.id) := by
  induction ticks generalizing stage with
  | nil => rfl
  | cons now rest ih => rw [List.foldl_cons, ih (coherent.ticked now), coherent.map_id_tick]

/-! ## All calls -/

theorem outcome (coherent : stage.Coherent) {call : Call} (outcome : Outcome stage call changed) :
    changed.Coherent := by
  cases outcome with
  | refused => exact coherent
  | added known => exact coherent.added _
  | removed live => exact coherent.removed live
  | selected | chosen =>
    exact coherent.of_frame rfl ⟨rfl, rfl⟩ coherent.casting coherent.inside coherent.idle
  | dragged =>
    refine coherent.of_map rfl (fun actor => ?_) ⟨rfl, rfl, rfl, rfl⟩ fun actor member => ?_
    · split <;> rfl
    · split
      · exact stage.bounds.keeps_clamp _
      · exact coherent.inside actor member
  | resized =>
    exact coherent.of_map rfl (fun _ => rfl) ⟨rfl, rfl, rfl, rfl⟩ fun _ _ => Bounds.keeps_clamp _ _
  | sentHome =>
    exact coherent.of_map rfl (fun _ => rfl) ⟨rfl, rfl, rfl, rfl⟩ fun _ _ => Bounds.keeps_clamp _ _
  | edited =>
    refine coherent.of_map rfl (fun actor => ?_) ⟨rfl, rfl, rfl, rfl⟩ fun actor member => ?_
    · split <;> rfl
    · split <;> exact coherent.inside actor member
  | started => exact coherent.launched.ticked _
  | ticked => exact coherent.ticked _

theorem afterAll (coherent : stage.Coherent) (calls : List Call) :
    (stage.afterAll calls).Coherent := by
  induction calls generalizing stage with
  | nil => exact coherent
  | cons call rest ih => exact ih (coherent.outcome (outcome_after stage call))

end Coherent

theorem coherent_new (settings : Settings) : (Stage.new settings).Coherent where
  listed := rfl
  issued := ⟨[], .nobody⟩
  casting := .slnil
  inside := by simp [Stage.new]
  idle _ := rfl

theorem coherent_of_reachable [Trigonometry] {settings : Settings} {stage : Stage}
    (reachable : Reachable settings stage) : stage.Coherent := by
  induction reachable with
  | new => exact coherent_new settings
  | after call _ ih => exact ih.outcome (outcome_after _ call)

end Troupe.Stage
