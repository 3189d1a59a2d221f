import Troupe.Proofs.Stage.Trading

/-! # One actor at a time

What a tick does to an actor depends on its own run only, swaps aside, and those reach no
further than its script and its run's cursor. So a property of single actors that looks at
neither holds of everyone after a tick if a frame of a single run hands it on.

* `Coherent.tick_of_run`, `Coherent.tick_of_absent` — a tick, as one actor sees it.
* `EachActor` — a property of every actor together with its run, if it has one.
* `EachActor.ticked`, `EachActor.launched`, `EachActor.mapped`, `EachActor.modified`,
  `EachActor.edited`, `EachActor.removed`, `EachActor.added` — how calls hand it on.
* `Lasting`, `EachActor.outcome` — a property that no call takes away, places and bounds aside.
-/

namespace Troupe.Stage

open Troupe.Geometry
open Troupe.Number (Trigonometry)
open Troupe.Script
open Troupe.Playback

variable [LawfulIdSource] {stage changed : Stage} {id : ActorId} {actor : Actor} {run : Run}

namespace Coherent

/-! ## The tick of one actor -/

theorem actor?_meet (coherent : stage.Coherent) (shows : stage.actor? id = some actor) :
    ∃ script, stage.meet.actor? id = some { actor with script } := by
  rw [meet_eq_traded coherent]
  exact ⟨_, (actor?_traded stage _ id).trans (congrArg _ shows)⟩

theorem run?_meet (coherent : stage.Coherent) (id : ActorId) :
    ∃ cursor, stage.meet.run? id = (stage.run? id).map fun run => { run with cursor } := by
  rw [meet_eq_traded coherent]
  refine ⟨stage.cursorOf (trading stage.met id), (run?_traded stage _ id).trans ?_⟩
  cases plays : stage.run? id with
  | none => rfl
  | some run => simp [handCursor, actor_of_run? plays]

variable [Trigonometry]

/-- A tick as an actor with a run sees it: its run plays a frame, and then the script and the
    cursor may be traded. If that ends the performance, nothing is in progress. -/
theorem tick_of_run (coherent : stage.Coherent) (running : stage.running = true) (now : Nat)
    (shows : stage.actor? id = some actor) (plays : stage.run? id = some run) :
    ∃ later shown script,
      run.Played now stage.tempo stage.tempo.budget actor
        (run.begun now stage.tempo stage.tempo.budget actor) later shown ∧
      (stage.tick now).actor? id = some { shown with script } ∧
      ((∃ cursor, (stage.tick now).running = true ∧
          (stage.tick now).run? id = some { later with cursor }) ∨
        (later.activity = none ∧ (stage.tick now).run? id = none)) := by
  obtain ⟨later, shown, played, showsNow, playsNow⟩ := coherent.advance_of_run now shows plays
  have advanced := coherent.advanced now
  obtain ⟨script, traded⟩ := advanced.actor?_meet showsNow
  obtain ⟨cursor, handed⟩ := advanced.run?_meet id
  rw [playsNow, Option.map_some] at handed
  refine ⟨later, shown, script, played, ?_, ?_⟩
  · rw [tick_of_running running, actor?, conclude_actors]
    exact traded
  · rw [tick_of_running running]
    rcases conclude_cases (stage.advance now).meet with ⟨finished, concludes⟩ | ⟨_, concludes⟩
    · right
      have done := List.all_eq_true.mp finished _ (List.mem_of_find?_eq_some handed)
      simp [Run.isFinished] at done
      exact ⟨done.1, by rw [concludes]; rfl⟩
    · left
      rw [concludes]
      refine ⟨cursor, ?_, handed⟩
      rw [meet_eq]
      exact running

theorem tick_of_absent (coherent : stage.Coherent) (now : Nat)
    (shows : stage.actor? id = some actor) (absent : stage.run? id = none) :
    ∃ script, (stage.tick now).actor? id = some { actor with script } ∧
      (stage.tick now).run? id = none := by
  cases running : stage.running with
  | false => exact ⟨actor.script, by rw [tick_of_idle running]; exact ⟨shows, absent⟩⟩
  | true =>
    have frame := coherent.advance_of_absent now absent
    have advanced := coherent.advanced now
    obtain ⟨script, traded⟩ := advanced.actor?_meet (frame.1.trans shows)
    obtain ⟨cursor, handed⟩ := advanced.run?_meet id
    rw [frame.2, Option.map_none] at handed
    refine ⟨script, ?_, ?_⟩
    · rw [tick_of_running running, actor?, conclude_actors]
      exact traded
    · rw [tick_of_running running]
      rcases conclude_cases (stage.advance now).meet with ⟨_, concludes⟩ | ⟨_, concludes⟩
      · rw [concludes]
        rfl
      · rw [concludes]
        exact handed

end Coherent

/-! ## Everyone -/

/-- A property of every actor together with its run, if it has one. -/
def EachActor (holds : Actor → Option Run → Prop) (stage : Stage) : Prop :=
  ∀ actor ∈ stage.actors, holds actor (stage.run? actor.id)

/-- A property that swaps cannot touch, and that an actor keeps when its run is taken away
    with nothing in progress. -/
structure Undisturbed (holds : Actor → Option Run → Prop) : Prop where
  script : ∀ {actor : Actor} {run : Option Run} (script : List Block),
    holds actor run → holds { actor with script } run
  cursor : ∀ {actor : Actor} {run : Run} (cursor : Cursor),
    holds actor (some run) → holds actor (some { run with cursor })
  finished : ∀ {actor : Actor} {run : Run}, run.activity = none →
    holds actor (some run) → holds actor none

namespace EachActor

variable {before holds : Actor → Option Run → Prop}

theorem of_actor? (each : stage.EachActor holds) (shows : stage.actor? id = some actor) :
    holds actor (stage.run? id) := by
  have found := each actor (List.mem_of_find?_eq_some shows)
  rwa [id_of_actor? shows] at found

theorem ticked [Trigonometry] (each : stage.EachActor before) (coherent : stage.Coherent)
    (running : stage.running = true) {now : Nat} (undisturbed : Undisturbed holds)
    (resting : ∀ actor, stage.run? actor.id = none → before actor none → holds actor none)
    (playing : ∀ actor run later shown, stage.actor? actor.id = some actor →
      stage.run? actor.id = some run → before actor (some run) →
      run.Played now stage.tempo stage.tempo.budget actor
        (run.begun now stage.tempo stage.tempo.budget actor) later shown →
      holds shown (some later)) :
    (stage.tick now).EachActor holds := by
  intro ticked member
  -- Nobody comes or goes in a tick, so there is an actor of before to follow.
  have listed : ticked.id ∈ stage.actors.map (·.id) := by
    rw [← coherent.map_id_tick now]
    exact List.mem_map_of_mem member
  obtain ⟨actor, present, sameId⟩ := List.mem_map.mp listed
  have shows := coherent.actor?_of_mem present
  have showsNow := (coherent.ticked now).actor?_of_mem member
  have was := each actor present
  rw [← sameId] at showsNow ⊢
  cases plays : stage.run? actor.id with
  | none =>
    rw [plays] at was
    obtain ⟨script, same, absent⟩ := coherent.tick_of_absent now shows plays
    obtain rfl := Option.some.inj (showsNow.symm.trans same)
    rw [absent]
    exact undisturbed.script script (resting actor plays was)
  | some run =>
    rw [plays] at was
    obtain ⟨later, shown, script, played, same, goesOn⟩ :=
      coherent.tick_of_run running now shows plays
    obtain rfl := Option.some.inj (showsNow.symm.trans same)
    have handed := playing actor run later shown shows plays was played
    rcases goesOn with ⟨cursor, _, playsNow⟩ | ⟨free, absent⟩
    · rw [playsNow]
      exact undisturbed.script script (undisturbed.cursor cursor handed)
    · rw [absent]
      exact undisturbed.script script (undisturbed.finished free handed)

theorem launched [Trigonometry] (each : stage.EachActor before) (coherent : stage.Coherent)
    (idle : stage.running = false)
    (resting : ∀ actor, before actor none → holds actor none)
    (starting : ∀ part ∈ stage.currentLineup.parts, before part.actor none →
      holds { part.actor with script := part.script }
        (some (part.run stage.settings.moveDuration))) :
    (stage.launch stage.currentLineup).EachActor holds := by
  intro launched member
  have listed : launched.id ∈ stage.actors.map (·.id) := by
    rw [← coherent.map_id_launch]
    exact List.mem_map_of_mem member
  obtain ⟨actor, present, sameId⟩ := List.mem_map.mp listed
  have showsNow := coherent.launched.actor?_of_mem member
  have was := each actor present
  have absent : stage.run? actor.id = none := by simp [run?, coherent.idle idle]
  rw [absent] at was
  rw [← sameId] at showsNow ⊢
  cases scripted : actor.isScripted with
  | false =>
    obtain ⟨same, still⟩ := launch_of_unscripted coherent.distinct present scripted
    obtain rfl := Option.some.inj (showsNow.symm.trans same)
    rw [still]
    exact resting launched was
  | true =>
    have cast : actor ∈ stage.currentLineup.parts.map (·.actor) := by
      rw [show stage.currentLineup.parts.map (·.actor) = stage.cast
        from map_actor_parts stage.settings stage.cast]
      exact List.mem_filter.mpr ⟨coherent.roster_eq ▸ present, scripted⟩
    obtain ⟨part, played, rfl⟩ := List.mem_map.mp cast
    obtain ⟨same, plays⟩ := launch_of_part coherent.distinct coherent.listed played
    obtain rfl := Option.some.inj (showsNow.symm.trans same)
    rw [plays]
    exact starting part played was

theorem mapped (each : stage.EachActor before) {change : Actor → Actor}
    (actors : changed.actors = stage.actors.map change) (sameRuns : changed.runs = stage.runs)
    (keepsId : ∀ actor, (change actor).id = actor.id)
    (changes : ∀ actor ∈ stage.actors, before actor (stage.run? actor.id) →
      holds (change actor) (stage.run? actor.id)) :
    changed.EachActor holds := by
  unfold EachActor
  rw [actors]
  refine List.forall_mem_map.mpr fun actor member => ?_
  rw [keepsId, show changed.run? actor.id = stage.run? actor.id by simp only [run?, sameRuns]]
  exact changes actor member (each actor member)

/-- One actor is changed, and the others stay as they are. -/
theorem modified (each : stage.EachActor holds) {change : Actor → Actor}
    (keepsId : ∀ actor, (change actor).id = actor.id)
    (changes : ∀ actor run, holds actor run → holds (change actor) run) :
    (stage.modify id change).EachActor holds := by
  refine each.mapped rfl rfl (fun actor => ?_) fun actor _ held => ?_
  · by_cases own : actor.id = id <;> simp [own, keepsId]
  · by_cases own : actor.id = id
    · rw [if_pos own]
      exact changes actor _ held
    · rw [if_neg own]
      exact held

theorem edited (each : stage.EachActor holds) (undisturbed : Undisturbed holds)
    (script : List Block) : (stage.setScript id script).EachActor holds :=
  each.modified (fun _ => rfl) fun _ _ held => undisturbed.script script held

theorem removed (each : stage.EachActor holds)
    (actors : changed.actors = stage.actors.filter (·.id != id))
    (runs : changed.runs = stage.runs.filter (·.actor != id)) : changed.EachActor holds := by
  intro actor member
  rw [actors, List.mem_filter] at member
  have others : changed.run? actor.id = stage.run? actor.id := by
    have differs : actor.id ≠ id := by simpa using member.2
    rw [run?, runs]
    exact find?_filter_of_ne differs stage.runs
  rw [others]
  exact each actor member.1

theorem added (each : stage.EachActor holds) (coherent : stage.Coherent) {template : Template}
    (holdsNew : holds (stage.newcomer template) none) :
    EachActor holds { stage with
      actors := stage.actors ++ [stage.newcomer template]
      order := stage.order ++ [(IdSource.take stage.ids).1]
      ids := (IdSource.take stage.ids).2
      selected := some (IdSource.take stage.ids).1 } := by
  intro actor member
  rcases List.mem_append.mp member with old | new
  · exact each actor old
  · rw [List.mem_singleton] at new
    have distinct := (coherent.added template).distinct
    have absent : stage.run? (stage.newcomer template).id = none := by
      refine find?_eq_none_iff.mpr fun plays => ?_
      simp [List.nodup_append] at distinct
      obtain ⟨other, present, same⟩ := List.mem_map.mp (coherent.casting.subset plays)
      exact distinct.2 other present same
    rw [new]
    change holds _ (stage.run? (stage.newcomer template).id)
    rw [absent]
    exact holdsNew

end EachActor

/-! ## All calls -/

variable [Trigonometry]

/-- A property that frames hand on whatever the bounds are, and that an actor keeps wherever it is
    moved. -/
structure Lasting (holds : Actor → Option Run → Prop) : Prop extends Undisturbed holds where
  played : ∀ {now budget : Nat} {tempo : Tempo} {actor shown : Actor} {actions : List Action}
    {run later : Run}, run.Played now tempo budget actor actions later shown →
      holds actor (some run) → holds shown (some later)
  moved : ∀ {actor : Actor} {run : Option Run} (position : Point),
    holds actor run → holds (actor.movedTo position) run
  sentHome : ∀ {actor : Actor} {run : Option Run} (bounds : Bounds),
    holds actor run → holds (actor.reset bounds) run

namespace EachActor

variable {holds : Actor → Option Run → Prop} {call : Call}

theorem tick (each : stage.EachActor holds) (coherent : stage.Coherent) (lasting : Lasting holds)
    (now : Nat) : (stage.tick now).EachActor holds := by
  cases running : stage.running with
  | false => rwa [tick_of_idle running]
  | true =>
    exact each.ticked coherent running lasting.toUndisturbed (fun _ _ held => held)
      fun _ _ _ _ _ _ held played => lasting.played played held

/-- It is enough to look at who comes and at who starts. -/
theorem outcome (each : stage.EachActor holds) (coherent : stage.Coherent)
    (lasting : Lasting holds)
    (coming : ∀ {name template}, call = .add name →
      stage.settings.template? name = some template → holds (stage.newcomer template) none)
    (starting : ∀ part ∈ stage.currentLineup.parts, holds part.actor none →
      holds { part.actor with script := part.script }
        (some (part.run stage.settings.moveDuration)))
    (outcome : Outcome stage call changed) : changed.EachActor holds := by
  cases outcome with
  | refused | selected | chosen => exact each
  | added known => exact each.added coherent (coming rfl known)
  | removed => exact each.removed rfl rfl
  | dragged => exact each.modified (fun _ => rfl) fun _ _ held => lasting.moved _ held
  | resized => exact each.mapped rfl rfl (fun _ => rfl) fun _ _ held => lasting.moved _ held
  | sentHome => exact each.mapped rfl rfl (fun _ => rfl) fun _ _ held => lasting.sentHome _ held
  | edited => exact each.edited lasting.toUndisturbed _
  | @started now idle =>
    exact (each.launched coherent idle (fun _ held => held) starting).tick coherent.launched
      lasting now
  | @ticked now => exact each.tick coherent lasting now

end EachActor

end Troupe.Stage
