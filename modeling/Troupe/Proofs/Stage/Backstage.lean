import Troupe.Proofs.Stage.EachActor
import Troupe.Proofs.Stage.Watched

/-! # Writing scripts during a performance

A run plays from its own copy of a script, so whatever is done to the scripts on the stage while a
performance is in progress shows in later performances only. The swaps on the way do read and write
the scripts on the stage; but who swaps depends on the places of the actors, and what a run plays
after a swap on the other run.

* `Call.isBackstage` — the calls that write scripts, select an actor or add one.
* `picture` — what is seen of some actors and of the performance.
* `Run.play_alike` — a run does not read more of its actor than can be seen.
* `PlaysAlike`, `PlaysAlike.ticked` — two stages that differ in what no run reads.
* `backstage_unseen` — a performance with such calls in between, and without them.
-/

namespace Troupe

open Troupe.Geometry (Bounds Pose)
open Troupe.Number (Trigonometry)
open Troupe.Script (Block Effect Message)
open scoped Troupe.IdPool

/-- What can be seen of an actor on its own. -/
def Actor.look (actor : Actor) : Pose × Message :=
  (actor.pose, actor.message)

namespace Stage

def Call.isBackstage : Call → Bool
  | .add _ | .select _ => true
  | call => call.isEdit

/-- What is seen of some actors, whether a performance is in progress, which is also what a tick
    answers, and whether it is animated. -/
def picture [LawfulIdSource] (ids : List ActorId) (stage : Stage) :
    List (Option (Pose × Message)) × Bool × Bool :=
  (ids.map fun id => (stage.actor? id).map Actor.look, stage.running, stage.animating)

/-! ## Runs -/

namespace Run

variable {actor other : Actor}

theorem settle_alike (alike : actor.look = other.look) (run : Run) (now : Nat) (bounds : Bounds) :
    (run.settle actor now bounds).1 = (run.settle other now bounds).1 ∧
      (run.settle actor now bounds).2.1.look = (run.settle other now bounds).2.1.look ∧
      (run.settle actor now bounds).2.2 = (run.settle other now bounds).2.2 := by
  obtain ⟨pose, message⟩ := Prod.mk.inj alike
  unfold settle
  cases run.activity with
  | none => exact ⟨rfl, alike, rfl⟩
  | some activity =>
    cases activity with
    | tween tween =>
      rcases stepped : tween.step now bounds with ⟨later, shown, _ | _⟩ <;>
        simp [Activity.step, stepped, Actor.look, message]
    | bubble pause =>
      rcases stepped : pause.step now with ⟨later, _ | _⟩ <;>
        simp [Activity.step, stepped, Actor.look, pose, message]

theorem begin_alike (alike : actor.look = other.look) (run : Run) (effect : Effect)
    (tempo : Tempo) :
    (run.begin actor effect tempo).1 = (run.begin other effect tempo).1 ∧
      (run.begin actor effect tempo).2.look = (run.begin other effect tempo).2.look := by
  cases effect with
  | move | turn => exact ⟨rfl, alike⟩
  | «show» => exact ⟨rfl, Prod.ext (congrArg (·.1) alike : actor.pose = other.pose) rfl⟩

/-- The induction is on the budget, with the run and the actors that settling and the next effect
    leave. -/
theorem play_alike [Trigonometry] (alike : actor.look = other.look) (run : Run) (now : Nat)
    (tempo : Tempo) (budget : Nat) :
    (run.play now tempo budget actor).1 = (run.play now tempo budget other).1 ∧
      (run.play now tempo budget actor).2.look = (run.play now tempo budget other).2.look := by
  induction budget generalizing run actor other with
  | zero =>
    obtain ⟨runs, looks, _⟩ := settle_alike alike run now tempo.bounds
    exact ⟨runs, looks⟩
  | succ budget ih =>
    obtain ⟨runs, looks, progresses⟩ := settle_alike alike run now tempo.bounds
    rcases one : run.settle actor now tempo.bounds with ⟨later, shown, progress⟩
    rcases another : run.settle other now tempo.bounds with ⟨_, shownOther, _⟩
    rw [one, another] at runs looks progresses
    obtain rfl : later = _ := runs
    obtain rfl : progress = _ := progresses
    unfold play
    rw [one, another]
    cases progress with
    | pending => exact ⟨rfl, looks⟩
    | done =>
      rcases asked : later.cursor.next with ⟨_ | action, cursor⟩
      · simpa only [asked, true_and] using looks
      · obtain ⟨begins, seen⟩ := begin_alike looks { later with cursor }
          (action.effect later.pose tempo.bounds) tempo
        simp only [asked, begins]
        exact ih seen _

end Run

/-! ## Stages that play alike -/

section

variable [LawfulIdSource]

/-- Two stages that agree in everything but actors, identities and selection. -/
structure SamePerformance (edited plain : Stage) : Prop where
  settings : edited.settings = plain.settings
  running : edited.running = plain.running
  animating : edited.animating = plain.animating
  runs : edited.runs = plain.runs
  encounters : edited.encounters = plain.encounters

/-- Two stages with the same performance in progress, and some actors that look the same on both. All
    those who perform are among them. -/
structure PlaysAlike (ids : List ActorId) (edited plain : Stage) : Prop where
  coherent : edited.Coherent
  coherentPlain : plain.Coherent
  same : SamePerformance edited plain
  casting : ∀ run ∈ plain.runs, run.actor ∈ ids
  shown : ∀ id ∈ ids, ∃ other actor, edited.actor? id = some other ∧
    plain.actor? id = some actor ∧ other.look = actor.look

namespace PlaysAlike

variable {ids : List ActorId} {edited plain changed : Stage} {call : Call}

theorem refl (coherent : plain.Coherent) :
    PlaysAlike (plain.actors.map (·.id)) plain plain where
  coherent := coherent
  coherentPlain := coherent
  same := ⟨rfl, rfl, rfl, rfl, rfl⟩
  casting _ member := coherent.casting.subset (List.mem_map_of_mem member)
  shown _ listed := by
    obtain ⟨actor, shows, _⟩ := exists_of_mem_keys listed
    exact ⟨actor, actor, shows, shows, rfl⟩

theorem picture_eq (alike : PlaysAlike ids edited plain) :
    edited.picture ids = plain.picture ids := by
  have looks : ids.map (fun id => (edited.actor? id).map Actor.look) =
      ids.map fun id => (plain.actor? id).map Actor.look := by
    refine List.map_congr_left fun id listed => ?_
    obtain ⟨other, actor, showsOther, shows, look⟩ := alike.shown id listed
    rw [showsOther, shows, Option.map_some, Option.map_some, look]
  simp only [picture, looks, alike.same.running, alike.same.animating]

theorem run?_eq (alike : PlaysAlike ids edited plain) (id : ActorId) :
    edited.run? id = plain.run? id := by
  simp only [run?, alike.same.runs]

/-! ## Ticks -/

theorem tempo_eq (alike : PlaysAlike ids edited plain) : edited.tempo = plain.tempo := by
  simp only [tempo, bounds, alike.same.settings]

theorem advanced [Trigonometry] (alike : PlaysAlike ids edited plain) (now : Nat) :
    PlaysAlike ids (edited.advance now) (plain.advance now) := by
  have ⟨coherent, coherentPlain, same, casting, shown⟩ := alike
  refine ⟨coherent.advanced now, coherentPlain.advanced now, ?same, ?casting, ?shown⟩
  case same =>
    -- A run looks at nothing of its actor but what both stages show of it.
    have runs : edited.runs.map (playedOn now edited.tempo edited.actors) =
        plain.runs.map (playedOn now plain.tempo plain.actors) := by
      rw [same.runs, alike.tempo_eq]
      refine List.map_congr_left fun run member => ?_
      obtain ⟨other, actor, showsOther, shows, look⟩ := shown _ (casting run member)
      rw [playedOn_of_actor _ _ showsOther, playedOn_of_actor _ _ shows]
      exact (run.play_alike look now plain.tempo _).1
    rw [advance_eq edited now coherent.distinct coherent.once,
      advance_eq plain now coherentPlain.distinct coherentPlain.once]
    exact ⟨same.settings, same.running, same.animating, runs, same.encounters⟩
  case casting =>
    rw [advance_eq plain now coherentPlain.distinct coherentPlain.once]
    refine List.forall_mem_map.mpr fun run member => ?_
    rw [playedOn_actor]
    exact casting run member
  case shown =>
    intro id listed
    obtain ⟨other, actor, showsOther, shows, look⟩ := shown id listed
    have playsOther := alike.run?_eq id
    cases plays : plain.run? id with
    | none =>
      rw [plays] at playsOther
      exact ⟨other, actor, (coherent.advance_of_absent now playsOther).1.trans showsOther,
        (coherentPlain.advance_of_absent now plays).1.trans shows, look⟩
    | some run =>
      rw [plays] at playsOther
      refine ⟨_, _, (coherent.advance_of_playing now showsOther playsOther).1,
        (coherentPlain.advance_of_playing now shows plays).1, ?_⟩
      rw [alike.tempo_eq]
      exact (run.play_alike look now plain.tempo _).2

theorem placed_eq (alike : PlaysAlike ids edited plain) : edited.placed = plain.placed := by
  unfold placed
  rw [alike.same.runs]
  refine List.filterMap_congr fun run member => ?_
  obtain ⟨other, actor, showsOther, shows, look⟩ := alike.shown _ (alike.casting run member)
  have position : other.pose.position = actor.pose.position := congrArg (·.1.position) look
  rw [showsOther, shows, Option.map_some, Option.map_some, id_of_actor? showsOther,
    id_of_actor? shows, position]

/-- Who swaps is up to the positions, and what a run goes on with is up to the other runs. The scripts
    that are traded along with them need not be the same. -/
theorem swapped (alike : PlaysAlike ids edited plain) : PlaysAlike ids edited.meet plain.meet := by
  have ⟨coherent, coherentPlain, same, casting, shown⟩ := alike
  have met : edited.met = plain.met := by
    simp only [Stage.met, same.animating, same.settings, same.encounters, alike.placed_eq]
  have ongoing : edited.ongoing = plain.ongoing := by
    simp only [Stage.ongoing, same.animating, same.settings, same.encounters, alike.placed_eq]
  have runs : (edited.traded (trading edited.met)).runs =
      (plain.traded (trading plain.met)).runs := by
    have cursors : edited.cursorOf = plain.cursorOf := funext fun id => by
      simp only [cursorOf, alike.run?_eq]
    have handed : edited.handCursor (trading plain.met) = plain.handCursor (trading plain.met) := by
      funext run
      rw [handCursor, handCursor, cursors]
    simp only [traded, handed, same.runs, met]
  refine ⟨coherent.swapped, coherentPlain.swapped, ?same, ?casting, ?shown⟩
  case same =>
    rw [meet_eq_traded coherent, meet_eq_traded coherentPlain]
    exact ⟨same.settings, same.running, same.animating, runs, ongoing⟩
  case casting =>
    rw [meet_eq_traded coherentPlain]
    exact List.forall_mem_map.mpr casting
  case shown =>
    intro id listed
    obtain ⟨other, actor, showsOther, shows, look⟩ := shown id listed
    obtain ⟨_, showsNow⟩ := coherent.actor?_meet showsOther
    obtain ⟨_, showsNowPlain⟩ := coherentPlain.actor?_meet shows
    exact ⟨_, _, showsNow, showsNowPlain, look⟩

theorem concluded (alike : PlaysAlike ids edited plain) :
    PlaysAlike ids edited.conclude plain.conclude := by
  have ⟨coherent, coherentPlain, same, casting, shown⟩ := alike
  have finishing : edited.runs.all Run.isFinished = plain.runs.all Run.isFinished :=
    congrArg (·.all Run.isFinished) same.runs
  refine ⟨coherent.concluded, coherentPlain.concluded, ?same, ?casting, ?shown⟩
  case same =>
    unfold conclude
    rw [finishing]
    split
    case isTrue => exact ⟨same.settings, rfl, rfl, rfl, congrArg (·.forget) same.encounters⟩
    case isFalse => exact same
  case casting =>
    rcases conclude_cases plain with ⟨_, concludes⟩ | ⟨_, concludes⟩ <;> rw [concludes]
    · exact nofun
    · exact casting
  case shown =>
    simpa only [actor?, conclude_actors] using shown

theorem ticked [Trigonometry] (alike : PlaysAlike ids edited plain) (now : Nat) :
    PlaysAlike ids (edited.tick now) (plain.tick now) := by
  cases running : plain.running with
  | false =>
    rw [tick_of_idle running, tick_of_idle (alike.same.running.trans running)]
    exact alike
  | true =>
    rw [tick_of_running running, tick_of_running (alike.same.running.trans running)]
    exact (alike.advanced now).swapped.concluded

/-! ## Calls in between -/

/-- A change that leaves the performance as it is and does not show on those who look the same. -/
theorem of_same (alike : PlaysAlike ids edited plain) (coherent : changed.Coherent)
    (same : SamePerformance changed edited)
    (keeps : ∀ id actor, edited.actor? id = some actor →
      ∃ other, changed.actor? id = some other ∧ other.look = actor.look) :
    PlaysAlike ids changed plain where
  coherent := coherent
  coherentPlain := alike.coherentPlain
  same := {
    settings := same.settings.trans alike.same.settings
    running := same.running.trans alike.same.running
    animating := same.animating.trans alike.same.animating
    runs := same.runs.trans alike.same.runs
    encounters := same.encounters.trans alike.same.encounters }
  casting := alike.casting
  shown id listed := by
    obtain ⟨before, actor, showsBefore, shows, look⟩ := alike.shown id listed
    obtain ⟨other, showsOther, unchanged⟩ := keeps id before showsBefore
    exact ⟨other, actor, showsOther, shows, unchanged.trans look⟩

theorem backstage [Trigonometry] (alike : PlaysAlike ids edited plain)
    (writes : call.isBackstage = true) (outcome : Outcome edited call changed) :
    PlaysAlike ids changed plain := by
  have coherent := alike.coherent.outcome outcome
  cases outcome with
  | refused => exact alike
  | added =>
    refine alike.of_same coherent ⟨rfl, rfl, rfl, rfl, rfl⟩ fun id actor shows => ?_
    have found : edited.actors.find? (·.id = id) = some actor := shows
    exact ⟨actor, by simp [actor?, found], rfl⟩
  | selected =>
    exact alike.of_same coherent ⟨rfl, rfl, rfl, rfl, rfl⟩ fun _ actor shows =>
      ⟨actor, shows, rfl⟩
  | edited =>
    refine alike.of_same coherent ⟨rfl, rfl, rfl, rfl, rfl⟩ fun id actor shows => ?_
    rw [actor?_setScript, shows, Option.map_some]
    refine ⟨_, rfl, ?_⟩
    split <;> rfl
  | removed | dragged | resized | sentHome | chosen | started | ticked => cases writes

end PlaysAlike

/-! ## Whole performances -/

/-- What is done to the scripts while a performance is in progress, who is selected and who is added
    cannot be told from what is seen after each tick. -/
theorem backstage_unseen [Trigonometry] {settings : Settings} {stage : Stage}
    (reachable : Reachable settings stage) {calls : List Call}
    (only : ∀ call ∈ calls, call.isTick = true ∨ call.isBackstage = true) :
    let ids := stage.actors.map (·.id)
    stage.watched (picture ids) calls = stage.watched (picture ids) (calls.filter Call.isTick) := by
  intro ids
  have overlooks : Overlooks (picture ids) Call.isTick
      (fun call => call.isTick = true ∨ call.isBackstage = true) (PlaysAlike ids) := {
    looks := PlaysAlike.picture_eq
    ticks := id
    counted := fun {_ _ call} ticks alike => by
      cases call with
      | tick now => exact alike.ticked now
      | _ => cases ticks
    ignored := fun {_ _ call} unticked only alike =>
      alike.backstage (only.resolve_left (by simp [unticked])) (outcome_after _ call) }
  exact overlooks.watched_filter only (.refl (coherent_of_reachable reachable))

end

/-- Two actors are about to trade scripts, and trade them at the second of three ticks. Before that
    one of them is given another block and the other loses one; later the traded scripts are written
    as well. One of the calls is refused. -/
def rewriting : List Call :=
  [.tick 100000000, .append ⟨0, 1⟩ (Block.turn 45 ⟨3⟩).1, .erase ⟨1, 1⟩ ⟨2⟩, .moveBlock ⟨0, 1⟩ 0 9,
    .add "ball", .select ⟨1, 1⟩, .tick 250000000, .insert ⟨0, 1⟩ 0 (Block.turn 45 ⟨4⟩).1,
    .tick 800000000]

theorem rewriting_unseen :
    Reachable .standard meetingPair ∧ meetingPair.running = true ∧
      (∀ call ∈ rewriting, call.isTick = true ∨ call.isBackstage = true) ∧
      (meetingPair.afterAll rewriting).actors.map (·.script.length) = [1, 3, 0] ∧
      (meetingPair.afterAll (rewriting.filter Call.isTick)).actors.map (·.script.length) = [1, 2] ∧
      meetingPair.watched (picture (meetingPair.actors.map (·.id))) rewriting =
        meetingPair.watched (picture (meetingPair.actors.map (·.id)))
          (rewriting.filter Call.isTick) := by
  have reachable : Reachable .standard meetingPair := reachable_facingPair.after _
  have only : ∀ call ∈ rewriting, call.isTick = true ∨ call.isBackstage = true := by decide
  exact ⟨reachable, by decide +kernel, only, by decide +kernel, by decide +kernel,
    backstage_unseen reachable only⟩

end Stage

end Troupe
