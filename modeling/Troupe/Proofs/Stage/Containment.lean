import Troupe.Proofs.Number.Angle
import Troupe.Proofs.Playback.Tween
import Troupe.Proofs.Script.Sound
import Troupe.Proofs.Stage.EachActor

/-! # Actors stay on the stage

Everything that changes a position moves it into the bounds in force, a resize included, so no
coordinate is ever beyond them. That leaves `NaN`, which is beyond nothing.

A run starts effects from a sound pose only, and what an effect or a hand-off leads to is sound
again. A tween shows a number in every frame and the pose that it leads to in its last. So as
long as homes and places that actors are dragged to are numbers, and the bounds are finite,
positions are inside the bounds and headings finite whenever nobody moves. Of a sine and a cosine
no more is needed than that they lie between minus one and one.

* `Run.IsSound` — what no frame spoils about a run.
* `Grounded`, `Grounded.outcome` — what no call spoils about a stage.
-/

namespace Troupe.Stage

open Troupe.Geometry
open Troupe.Number
open Troupe.Script
open Troupe.Playback
open scoped Troupe.IdPool

/-! ## Coordinates -/

section

variable [Trigonometry] [LawfulIdSource]

/-- After any calls no position is beyond the bounds in force, and moving it into them leaves it
    as it is, which comes to the same. -/
theorem nobody_beyond_bounds (settings : Settings) (calls : List Call) :
    let stage := (Stage.new settings).afterAll calls
    (∀ actor ∈ stage.actors,
      ((¬ actor.pose.position.x < 0 ∧ ¬ stage.bounds.max.x < actor.pose.position.x) ∧
          (¬ actor.pose.position.y < 0 ∧ ¬ stage.bounds.max.y < actor.pose.position.y)) ∧
        stage.bounds.clamp actor.pose.position = actor.pose.position) ∧
      ∀ position : Point, stage.bounds.clamp position = position ↔
        (¬ position.x < 0 ∧ ¬ stage.bounds.max.x < position.x) ∧
          (¬ position.y < 0 ∧ ¬ stage.bounds.max.y < position.y) := by
  intro stage
  have coherent : stage.Coherent := (coherent_new settings).afterAll calls
  have same (position : Point) : stage.bounds.Keeps position ↔
      (¬ position.x < 0 ∧ ¬ stage.bounds.max.x < position.x) ∧
        (¬ position.y < 0 ∧ ¬ stage.bounds.max.y < position.y) := Bounds.keeps_ofStage_iff
  exact ⟨fun actor member =>
    ⟨(same _).mp (coherent.inside actor member), coherent.inside actor member⟩, same⟩

end

/-- An actor on its way to a place that the stage no longer has. -/
def shrunkStage : Stage :=
  Stage.afterAll (.new .standard)
    [.add "cat", .append ⟨0, 1⟩ (Block.goTo 400 300 ⟨0⟩).1, .start 0, .tick 250000000,
      .resize 150 150, .tick 300000000]

theorem shrunkStage_nobody_beyond :
    ∃ actor ∈ shrunkStage.actors,
      (∃ run ∈ shrunkStage.runs, shrunkStage.bounds.max.x < run.pose.position.x) ∧
        ¬ actor.pose.position.x < 0 ∧ ¬ shrunkStage.bounds.max.x < actor.pose.position.x := by
  have listed : shrunkStage.actors ≠ [] := by decide +kernel
  have bound : ∃ run ∈ shrunkStage.runs, shrunkStage.bounds.max.x < run.pose.position.x := by
    decide +kernel
  obtain ⟨everyone, _⟩ := nobody_beyond_bounds .standard
    [.add "cat", .append ⟨0, 1⟩ (Block.goTo 400 300 ⟨0⟩).1, .start 0, .tick 250000000,
      .resize 150 150, .tick 300000000]
  obtain ⟨⟨across, _⟩, _⟩ := everyone (shrunkStage.actors.head listed) (List.head_mem listed)
  exact ⟨shrunkStage.actors.head listed, List.head_mem listed, bound, across⟩

/-! ## One run -/

namespace Run

/-- The pose that a run is about to reach is sound. A tween leads from one sound position to
    another; without one the actor has a finite heading. -/
structure IsSound (run : Run) (actor : Actor) : Prop where
  pose : run.pose.IsSound
  shows : match run.activity with
    | some (.tween tween) => tween.IsSound
    | _ => actor.pose.rotation.isFinite = true

variable {run later : Run} {actor shown : Actor} {now budget : Nat} {bounds : Bounds}
  {tempo : Tempo} {progress : Progress} {actions : List Action} {action : Action} {cursor : Cursor}

theorem IsSound.settled (sound : run.IsSound actor)
    (settled : Settled run actor now bounds (later, shown, progress))
    (number : actor.pose.position.IsNumber) (roomy : bounds.max.IsFinite) :
    later.IsSound shown ∧ shown.pose.position.IsNumber := by
  obtain ⟨pose, shows⟩ := sound
  cases settled with
  | free => exact ⟨⟨pose, shows⟩, number⟩
  | moving busy stepped =>
    -- On the way the heading may overflow. The one at the end of the tween does not.
    simp only [busy] at shows
    obtain ⟨goesOn, position, _⟩ := shows.step roomy stepped
    exact ⟨⟨pose, goesOn⟩, position.isNumber⟩
  | arrived busy stepped =>
    simp only [busy] at shows
    obtain ⟨_, position, rotation⟩ := shows.step roomy stepped
    exact ⟨⟨pose, rotation rfl⟩, position.isNumber⟩
  | showing busy | cleared busy =>
    simp only [busy] at shows
    exact ⟨⟨pose, shows⟩, number⟩

variable [Trigonometry]

theorem IsSound.begun (bounded : Trigonometry.IsBounded) (sound : run.IsSound actor)
    (roomy : tempo.bounds.max.IsFinite) (free : run.activity = none)
    (asked : run.cursor.next = (some action, cursor)) :
    let started := begin { run with cursor } actor (action.effect run.pose tempo.bounds) tempo
    started.1.IsSound started.2 := by
  obtain ⟨pose, shows⟩ := sound
  simp only [free] at shows
  have leads := Action.sound_lead bounded (Cursor.isFinite_of_next asked) pose roomy
  cases action with
  | walk | walkTo | rotate => exact ⟨leads, pose.position, leads⟩
  | «show» => exact ⟨pose, shows⟩

theorem IsSound.played (bounded : Trigonometry.IsBounded) (sound : run.IsSound actor)
    (played : Played now tempo budget run actor actions later shown)
    (number : actor.pose.position.IsNumber) (roomy : tempo.bounds.max.IsFinite) :
    later.IsSound shown ∧ shown.pose.position.IsNumber := by
  induction played with
  | spent settled | waiting settled => exact sound.settled settled number roomy
  | ended settled =>
    obtain ⟨⟨pose, shows⟩, position⟩ := sound.settled settled number roomy
    exact ⟨⟨pose, shows⟩, position⟩
  | began settled asked _ ih =>
    obtain ⟨carriedOn, position⟩ := sound.settled settled number roomy
    refine ih (carriedOn.begun bounded roomy settled.activity_eq_none asked) ?_
    rw [begin_actor]
    exact position

end Run

/-! ## Everyone -/

/-- What no call spoils about an actor. -/
structure Steady (actor : Actor) (run : Option Run) : Prop where
  home : actor.home.IsNumber
  position : actor.pose.position.IsNumber
  moves : match run with
    | some run => run.IsSound actor
    | none => actor.pose.rotation.isFinite = true

theorem undisturbed_steady : Undisturbed Steady where
  script _ steady := ⟨steady.home, steady.position, by
    have moves := steady.moves
    split at moves
    · exact ⟨moves.pose, moves.shows⟩
    · exact moves⟩
  cursor _ steady := ⟨steady.home, steady.position, steady.moves.pose, steady.moves.shows⟩
  finished free steady := ⟨steady.home, steady.position, by
    have shows := steady.moves.shows
    simpa only [free] using shows⟩

namespace Steady

variable {actor : Actor} {run : Option Run}

theorem sound_pose {bounds : Bounds} (steady : Steady actor none) (roomy : bounds.max.IsFinite)
    (kept : bounds.Keeps actor.pose.position) : actor.pose.IsSound :=
  ⟨kept.sound roomy steady.position, steady.moves⟩

theorem movedTo (steady : Steady actor run) {position : Point} (number : position.IsNumber) :
    Steady (actor.movedTo position) run :=
  ⟨steady.home, number, by
    have moves := steady.moves
    split at moves
    · exact ⟨moves.pose, moves.shows⟩
    · exact moves⟩

end Steady

section

variable [LawfulIdSource] {stage changed : Stage} {settings : Settings} {call : Call}

/-- What holds of a stage as long as it is given sane places and sizes only. -/
structure Grounded (settings : Settings) (stage : Stage) : Prop where
  coherent : stage.Coherent
  templates : stage.settings.templates = settings.templates
  spriteSize : stage.settings.spriteSize = settings.spriteSize
  roomy : stage.bounds.max.IsFinite
  steady : stage.EachActor Steady

namespace Grounded

variable [Trigonometry]

/-- A run starts from the pose of its actor, or walks to where its script would have led the
    actor that it was written for. Looking ahead shows sound poses only. -/
theorem sound_run (bounded : Trigonometry.IsBounded)
    (grounded : Grounded settings stage) (idle : stage.running = false) {part : Part}
    (member : part ∈ stage.currentLineup.parts) :
    (part.run stage.settings.moveDuration).IsSound { part.actor with script := part.script } := by
  have sound {actor : Actor} (present : actor ∈ stage.actors) : actor.pose.IsSound := by
    have steady := grounded.steady actor present
    rw [show stage.run? actor.id = none by simp [run?, grounded.coherent.idle idle]] at steady
    exact steady.sound_pose grounded.roomy (grounded.coherent.inside actor present)
  have own := sound (List.mem_of_find?_eq_some (actor_of_part grounded.coherent.distinct member))
  obtain ⟨i, origin, inCast, isPart⟩ := exists_origin stage.settings stage.cast member
  have leads : (destination stage.settings origin).IsSound :=
    sound_projectedPose bounded origin.script
      (sound (mem_actors_of_mem_roster (List.mem_filter.mp inCast).1)) grounded.roomy
  cases walks : part.handOff with
  | none =>
    constructor
    · simpa [Part.run, walks] using own
    · simpa [Part.run, walks] using own.rotation
  | some target =>
    -- The walk keeps the heading of the actor and takes its place from the script's owner.
    have finish : target.IsSound := by
      rw [isPart] at walks
      obtain ⟨_, rfl⟩ := by simpa [partOf] using walks
      exact ⟨leads.position, own.rotation⟩
    have walk : (Tween.new part.actor.pose target stage.settings.moveDuration).IsSound :=
      ⟨own.position, finish⟩
    constructor
    · simpa [Part.run, walks] using finish
    · simpa [Part.run, walks] using walk

theorem launched (bounded : Trigonometry.IsBounded) (grounded : Grounded settings stage)
    (idle : stage.running = false) :
    Grounded settings (stage.launch stage.currentLineup) where
  coherent := grounded.coherent.launched
  templates := grounded.templates
  spriteSize := grounded.spriteSize
  roomy := grounded.roomy
  steady := by
    refine grounded.steady.launched grounded.coherent idle (fun _ steady => steady) ?_
    intro part member steady
    exact ⟨steady.home, steady.position, grounded.sound_run bounded idle member⟩

theorem ticked (bounded : Trigonometry.IsBounded) (grounded : Grounded settings stage)
    (now : Nat) : Grounded settings (stage.tick now) := by
  cases running : stage.running with
  | false => rwa [tick_of_idle running]
  | true =>
    have sameSettings := tick_settings stage now
    refine ⟨grounded.coherent.ticked now, ?_, ?_, ?_, ?_⟩
    · rw [sameSettings]
      exact grounded.templates
    · rw [sameSettings]
      exact grounded.spriteSize
    · rw [bounds, sameSettings]
      exact grounded.roomy
    · refine grounded.steady.ticked grounded.coherent running undisturbed_steady
        (fun _ _ steady => steady) ?_
      intro actor run later shown _ _ steady played
      obtain ⟨sound, position⟩ := steady.moves.played bounded played steady.position grounded.roomy
      refine ⟨?_, position, sound⟩
      rw [played.actor_eq]
      exact steady.home

end Grounded

/-! ## All calls -/

/-- Whether a call drags an actor to a number, and resizes the stage to finite bounds. -/
def Call.IsSane (spriteSize : Float32) : Call → Prop
  | .drag _ position => position.IsNumber
  | .resize width height => (Bounds.ofStage width height spriteSize).max.IsFinite
  | _ => True

namespace Grounded

variable [Trigonometry]

theorem outcome (bounded : Trigonometry.IsBounded) (grounded : Grounded settings stage)
    (homes : ∀ template ∈ settings.templates, template.home.IsNumber)
    (sane : call.IsSane settings.spriteSize) (outcome : Outcome stage call changed) :
    Grounded settings changed := by
  have coherent := grounded.coherent.outcome outcome
  obtain ⟨before, templates, spriteSize, roomy, steady⟩ := grounded
  have inside {position : Point} (number : position.IsNumber) :
      (stage.bounds.clamp position).IsNumber := (Bounds.sound_clamp roomy number).isNumber
  cases outcome with
  | refused | selected | chosen => exact ⟨coherent, templates, spriteSize, roomy, steady⟩
  | @added _ template known =>
    have number : template.home.IsNumber :=
      homes template (templates ▸ List.mem_of_find?_eq_some known)
    exact ⟨coherent, templates, spriteSize, roomy,
      steady.added before ⟨inside number, inside number, isCoordinate_zero.2⟩⟩
  | removed => exact ⟨coherent, templates, spriteSize, roomy, steady.removed rfl rfl⟩
  | dragged =>
    exact ⟨coherent, templates, spriteSize, roomy,
      steady.modified (fun _ => rfl) fun _ _ steady => steady.movedTo (inside sane)⟩
  | @resized width height =>
    have roomyNow : (stage.resize width height).bounds.max.IsFinite := by
      change (Bounds.ofStage width height stage.settings.spriteSize).max.IsFinite
      rw [spriteSize]
      exact sane
    refine ⟨coherent, templates, spriteSize, roomyNow, steady.mapped rfl rfl (fun _ => rfl) ?_⟩
    intro actor _ steady
    exact steady.movedTo (Bounds.sound_clamp roomyNow steady.position).isNumber
  | sentHome idle =>
    refine ⟨coherent, templates, spriteSize, roomy, steady.mapped rfl rfl (fun _ => rfl) ?_⟩
    intro actor _ steady
    rw [show stage.run? actor.id = none by simp [run?, before.idle idle]]
    exact ⟨steady.home, inside steady.home, isCoordinate_zero.2⟩
  | edited => exact ⟨coherent, templates, spriteSize, roomy, steady.edited undisturbed_steady _⟩
  | @started now idle =>
    exact (launched bounded ⟨before, templates, spriteSize, roomy, steady⟩ idle).ticked bounded now
  | @ticked now => exact ticked bounded ⟨before, templates, spriteSize, roomy, steady⟩ now

theorem afterAll (bounded : Trigonometry.IsBounded) (grounded : Grounded settings stage)
    (homes : ∀ template ∈ settings.templates, template.home.IsNumber) {calls : List Call}
    (sane : ∀ call ∈ calls, call.IsSane settings.spriteSize) :
    Grounded settings (stage.afterAll calls) := by
  induction calls generalizing stage with
  | nil => exact grounded
  | cons call rest ih =>
    have next := grounded.outcome bounded homes (sane call List.mem_cons_self)
      (outcome_after stage call)
    exact ih next fun other member => sane other (List.mem_cons_of_mem _ member)

end Grounded

/-- As long as the homes of the templates and the places that actors are dragged to are numbers,
    and every size in force gives finite bounds, whatever the scripts say and whichever sine and
    cosine there are between minus one and one: every position is inside the bounds, every run is
    about to reach a pose with finite coordinates, none below zero, and a finite heading, and
    without a performance all headings are finite. -/
theorem nobody_lost [Trigonometry] (bounded : Trigonometry.IsBounded) {settings : Settings}
    {calls : List Call}
    (homes : ∀ template ∈ settings.templates, template.home.IsNumber)
    (roomy : settings.bounds.max.IsFinite)
    (sane : ∀ call ∈ calls, call.IsSane settings.spriteSize) :
    let stage := (Stage.new settings).afterAll calls
    (∀ actor ∈ stage.actors, stage.bounds.contains actor.pose.position = true) ∧
      (∀ run ∈ stage.runs, run.pose.IsSound) ∧
      (stage.running = false → ∀ actor ∈ stage.actors,
        actor.pose.rotation.isFinite = true) := by
  intro stage
  have fresh : Grounded settings (Stage.new settings) :=
    ⟨coherent_new settings, rfl, rfl, roomy, fun _ member => nomatch member⟩
  have grounded : Grounded settings stage := fresh.afterAll bounded homes sane
  refine ⟨?inside, ?pending, ?resting⟩
  case inside =>
    intro actor member
    exact Bounds.contains_of_keeps (grounded.coherent.inside actor member)
      (grounded.steady actor member).position
  case pending =>
    intro run member
    obtain ⟨actor, shows, _⟩ := grounded.coherent.live member
    have steady := grounded.steady.of_actor? shows
    rw [grounded.coherent.run?_of_mem member] at steady
    exact steady.moves.pose
  case resting =>
    intro idle actor member
    have steady := grounded.steady actor member
    rw [show stage.run? actor.id = none by simp [run?, grounded.coherent.idle idle]] at steady
    exact steady.moves

end

/-- Two turns that a number cannot hold, and a walk that no stage can. -/
def spinning : List Call :=
  let enormous (name : String) : Params := Params.empty.set name (.text "9e99")
  [.add "cat", .append ⟨0, 1⟩ (Block.new .turn (enormous "degrees") ⟨0⟩).1,
    .append ⟨0, 1⟩ (Block.new .turn (enormous "degrees") ⟨1⟩).1,
    .append ⟨0, 1⟩ (Block.new .move (enormous "steps") ⟨2⟩).1, .drag ⟨0, 1⟩ ⟨20, 30⟩, .start 0,
    .tick 300000000, .resize 150 150, .tick 600000000, .tick 1100000000]

theorem spinning_nobody_lost :
    let stage := (Stage.new .standard).afterAll spinning
    Trigonometry.IsBounded ∧
      (∀ template ∈ Settings.standard.templates, template.home.IsNumber) ∧
      Settings.standard.bounds.max.IsFinite ∧
      (∀ call ∈ spinning, call.IsSane Settings.standard.spriteSize) ∧
      stage.running = false ∧
      (∀ actor ∈ stage.actors, stage.bounds.contains actor.pose.position = true) ∧
      (∀ actor ∈ stage.actors, actor.pose.rotation.isFinite = true) ∧
      stage.actors.map (·.pose.rotation) = [largest32] := by
  intro stage
  have homes : ∀ template ∈ Settings.standard.templates, template.home.IsNumber := by
    unfold Point.IsNumber
    decide +kernel
  have roomy : Settings.standard.bounds.max.IsFinite := by
    unfold Point.IsFinite
    decide +kernel
  have smaller : (Bounds.ofStage 150 150 Settings.standard.spriteSize).max.IsFinite := by
    unfold Point.IsFinite
    decide +kernel
  have place : (⟨20, 30⟩ : Point).IsNumber := by
    unfold Point.IsNumber
    decide +kernel
  have sane : ∀ call ∈ spinning, call.IsSane Settings.standard.spriteSize := by
    simp [spinning, Call.IsSane, smaller, place]
  have ends : stage.running = false := by decide +kernel
  obtain ⟨inside, _, resting⟩ := nobody_lost isBounded_angle homes roomy sane
  exact ⟨isBounded_angle, homes, roomy, sane, ends, inside, resting ends, by decide +kernel⟩

end Troupe.Stage
