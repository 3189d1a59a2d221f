import Mathlib
import Troupe.Number.Angle
import Troupe.Proofs.Geometry.Nested
import Troupe.Proofs.Stage.EachActor
import Troupe.Proofs.Stage.Registry

/-! # What a reset makes of a history

An actor returns to the home of its template, moved inside the bounds in which the actor was made
and then inside the bounds in which it is reset. So a reset forgets everything but how small the
stage was when its actors came.

* `arrivals` — who was made in which settings.
* `Housed`, `Housed.afterAll` — where everyone returns to.
* `Call.isMove`, `reset_afterAll` — drags and resizes before a reset.
* `reset_forgets` — two histories.
-/

namespace Troupe.Stage

open Troupe.Geometry
open Troupe.Number (Trigonometry)
open scoped Troupe.IdPool

/-! ## One home -/

/-- An actor returns to the home of its template, inside the bounds in which it was made. -/
def IsLodged (settings : Settings) (arrived : List (ActorId × Settings)) (actor : Actor) : Prop :=
  ∃ template early, settings.template? actor.template = some template ∧
    (actor.id, early) ∈ arrived ∧ actor.home = early.bounds.clamp template.home

theorem lasting_lodged [Trigonometry] {settings : Settings}
    {arrived : List (ActorId × Settings)} :
    Lasting fun actor _ => IsLodged settings arrived actor where
  script _ lodged := lodged
  cursor _ lodged := lodged
  finished _ lodged := lodged
  played played lodged := by
    rw [played.actor_eq]
    exact lodged
  moved _ lodged := lodged
  sentHome _ lodged := lodged

/-- Whether a place has been moved farther in by the bounds in which an actor was made than other
    bounds ask for. -/
def Cramps (early : Settings) (bounds : Bounds) (place : Point) : Prop :=
  (early.bounds.max.x < place.x ∧ early.bounds.max.x < bounds.max.x) ∨
    (early.bounds.max.y < place.y ∧ early.bounds.max.y < bounds.max.y)

theorem clamp_clamp_eq_iff_not_cramps {early now : Settings} {place : Point} :
    now.bounds.clamp (early.bounds.clamp place) = now.bounds.clamp place ↔
      ¬ Cramps early now.bounds place :=
  Iff.trans Bounds.clamp_clamp_eq_iff not_or.symm

section

variable [LawfulIdSource] {stage changed : Stage} {settings : Settings} {call : Call}
  {actor : Actor} {arrived : List (ActorId × Settings)}

/-! ## Arrivals -/

section

variable [Trigonometry]

/-- Who was made in which settings. -/
def arrivals (stage : Stage) : List Call → List (ActorId × Settings)
  | [] => []
  | call :: rest =>
    ((stage.handedOut? call).map (·, stage.settings)).toList ++ arrivals (stage.after call) rest

/-- Everyone who was made is listed, once and in the order of creation. -/
theorem map_fst_arrivals (stage : Stage) (calls : List Call) :
    (stage.arrivals calls).map (·.1) = stage.created calls := by
  induction calls generalizing stage with
  | nil => rfl
  | cons call rest ih =>
    have splits : stage.created (call :: rest) =
        (stage.handedOut? call).toList ++ (stage.after call).created rest := rfl
    rw [arrivals, List.map_append, ih, splits]
    cases stage.handedOut? call <;> rfl

/-- Nobody is made twice. -/
theorem mem_arrivals_unique {calls : List Call} {id : ActorId} {early other : Settings}
    (came : (id, early) ∈ (Stage.new settings).arrivals calls)
    (again : (id, other) ∈ (Stage.new settings).arrivals calls) : other = early := by
  have once : (((Stage.new settings).arrivals calls).map (·.1)).Nodup := by
    rw [map_fst_arrivals]
    exact ((registered_new settings).afterAll calls).issued.nodup
  exact congrArg Prod.snd (List.inj_on_of_nodup_map once again came rfl)

end

/-! ## Homes -/

structure Housed (settings : Settings) (arrived : List (ActorId × Settings)) (stage : Stage) :
    Prop where
  coherent : stage.Coherent
  templates : stage.settings.templates = settings.templates
  lodged : stage.EachActor fun actor _ => IsLodged settings arrived actor

namespace Housed

theorem mono (housed : Housed settings arrived stage) (more : List (ActorId × Settings)) :
    Housed settings (arrived ++ more) stage :=
  ⟨housed.coherent, housed.templates, fun actor member =>
    have ⟨template, early, known, came, home⟩ := housed.lodged actor member
    ⟨template, early, known, List.mem_append_left _ came, home⟩⟩

variable [Trigonometry]

/-- Nobody's home changes while nobody comes. -/
theorem outcome (housed : Housed settings arrived stage) (outcome : Outcome stage call changed)
    (stays : ∀ name, call ≠ .add name) : Housed settings arrived changed where
  coherent := housed.coherent.outcome outcome
  templates := by
    rw [← housed.templates]
    cases outcome with
    | started => exact congrArg Settings.templates (tick_settings _ _)
    | ticked => exact congrArg Settings.templates (tick_settings _ _)
    | _ => rfl
  lodged := housed.lodged.outcome housed.coherent lasting_lodged
    (fun adds => absurd adds (stays _)) (fun _ _ lodged => lodged) outcome

theorem after (housed : Housed settings arrived stage) (call : Call) :
    Housed settings (arrived ++ ((stage.handedOut? call).map (·, stage.settings)).toList)
      (stage.after call) := by
  by_cases adds : ∃ name, call = .add name
  · obtain ⟨name, rfl⟩ := adds
    cases known : stage.settings.template? name with
    | none =>
      obtain ⟨nobody, same⟩ := after_add_of_unknown known
      rw [same]
      exact housed.mono _
    | some template =>
      obtain ⟨somebody, adds⟩ := after_add known
      rw [somebody, adds]
      obtain ⟨coherent, templates, lodged⟩ :=
        housed.mono [((IdSource.take stage.ids).1, stage.settings)]
      refine ⟨coherent.added template, templates, lodged.added coherent ?_⟩
      -- a template is found again by the name that it has
      have found : settings.template? template.id = some template := by
        have named : template.id = name := by simpa using List.find?_some known
        rw [named, ← known, Settings.template?, Settings.template?, housed.templates]
      exact ⟨template, stage.settings, found, List.mem_append_right _ List.mem_cons_self, rfl⟩
  · exact (housed.outcome (outcome_after stage call) fun name same => adds ⟨name, same⟩).mono _

theorem afterAll (housed : Housed settings arrived stage) (calls : List Call) :
    Housed settings (arrived ++ stage.arrivals calls) (stage.afterAll calls) := by
  induction calls generalizing stage arrived with
  | nil => exact housed.mono []
  | cons call rest ih =>
    have later := ih (housed.after call)
    rwa [List.append_assoc] at later

end Housed

theorem housed_new (settings : Settings) : Housed settings [] (Stage.new settings) :=
  ⟨coherent_new settings, rfl, fun _ member => nomatch member⟩

/-! ## Drags and resizes -/

/-- Whether a call only moves actors, or the ends of the stage. -/
def Call.isMove : Call → Bool
  | .drag .. | .resize .. => true
  | _ => false

/-- A stage after calls that only move actors, as a reset sees it. -/
structure IsMoved (stage changed : Stage) : Prop where
  same : changed = { stage with actors := changed.actors, settings := changed.settings }
  sent : ∀ bounds, changed.actors.map (·.reset bounds) = stage.actors.map (·.reset bounds)

theorem IsMoved.trans {later : Stage} (moved : IsMoved stage changed)
    (moved' : IsMoved changed later) : IsMoved stage later := by
  refine ⟨?_, fun bounds => (moved'.sent bounds).trans (moved.sent bounds)⟩
  rw [moved'.same, moved.same]

theorem isMoved_after [Trigonometry] (stage : Stage) (moves : call.isMove = true) :
    IsMoved stage (stage.after call) := by
  have outcome := outcome_after stage call
  generalize stage.after call = changed at outcome
  cases outcome with
  | refused => exact ⟨rfl, fun _ => rfl⟩
  | added | removed | selected | sentHome | chosen | started | ticked => cases moves
  | edited edits => cases call <;> simp [Call.isMove, Call.isEdit] at moves edits
  | dragged =>
    refine ⟨rfl, fun bounds => List.map_map.trans (List.map_congr_left fun actor _ => ?_)⟩
    simp only [Function.comp_apply]
    split <;> rfl
  | resized => exact ⟨rfl, fun bounds => List.map_map⟩

theorem isMoved_afterAll [Trigonometry] (stage : Stage) {moves : List Call}
    (all : ∀ call ∈ moves, call.isMove = true) : IsMoved stage (stage.afterAll moves) := by
  induction moves generalizing stage with
  | nil => exact ⟨rfl, fun _ => rfl⟩
  | cons call rest ih =>
    exact (isMoved_after stage (all call List.mem_cons_self)).trans
      (ih (stage.after call) fun other member => all other (List.mem_cons_of_mem _ member))

/-- The stage that a reset leaves, if nothing is in progress. -/
def sentHome (stage : Stage) : Stage :=
  { stage with actors := stage.actors.map (·.reset stage.bounds) }

theorem reset_of_idle (idle : stage.running = false) :
    stage.reset = (.ok (), stage.sentHome) := by
  rw [reset, if_neg (by rw [idle]; exact Bool.false_ne_true)]
  rfl

theorem reset_sentHome (idle : stage.running = false) :
    stage.sentHome.reset = (.ok (), stage.sentHome) := by
  have twice : stage.sentHome.actors.map (·.reset stage.bounds) = stage.sentHome.actors :=
    List.map_map
  have again : stage.sentHome.sentHome =
      { stage with actors := stage.sentHome.actors.map (·.reset stage.bounds) } := rfl
  have idle : stage.sentHome.running = false := idle
  rw [reset_of_idle idle, again, twice]
  rfl

/-- Drags, and resizes away and back, make no difference to a reset. -/
theorem reset_afterAll [Trigonometry] {moves : List Call} (idle : stage.running = false)
    (all : ∀ call ∈ moves, call.isMove = true)
    (back : (stage.afterAll moves).settings = stage.settings) :
    (stage.afterAll moves).reset = stage.reset := by
  have moved := isMoved_afterAll stage all
  have stillIdle : (stage.afterAll moves).running = false := by
    rw [moved.same]
    exact idle
  rw [reset_of_idle idle, reset_of_idle stillIdle, sentHome, sentHome, moved.same, back]
  simp only [bounds]
  rw [moved.sent]

/-! ## Two histories -/

/-- The actors that a reset leaves, each with its template and the settings in which it was made. -/
theorem Housed.sentHome (housed : Housed settings arrived stage)
    (member : actor ∈ stage.sentHome.actors) :
    ∃ template early, settings.template? actor.template = some template ∧
      (actor.id, early) ∈ arrived ∧
      actor.pose = ⟨stage.bounds.clamp (early.bounds.clamp template.home), 0⟩ ∧
      actor.message = .none := by
  obtain ⟨present, listed, rfl⟩ := List.mem_map.mp member
  obtain ⟨template, early, known, came, home⟩ := housed.lodged present listed
  exact ⟨template, early, known, came, by rw [← home]; rfl, rfl⟩

/-- Two stages of one size and with the same templates, whatever their histories, after a reset:
    every actor has heading zero and no bubble, and is at its template's home, moved inside the
    bounds in which it was made and then inside the present ones. So two actors of one template are
    at the same place if they were made in the same bounds, and an actor is where the present bounds
    alone would have put it unless those in which it was made were smaller on one axis than the home
    and the present bounds. Another reset changes nothing, and drags and resizes before the reset
    make no difference to it as long as the size in the end is the same. -/
theorem reset_forgets [Trigonometry] {settings settings' : Settings} {calls calls' : List Call}
    (templates : settings.templates = settings'.templates) :
    let stage := (Stage.new settings).afterAll calls
    let stage' := (Stage.new settings').afterAll calls'
    stage.running = false → stage'.running = false →
    stage.settings.width = stage'.settings.width →
    stage.settings.height = stage'.settings.height →
    stage.settings.spriteSize = stage'.settings.spriteSize →
    ∃ sent sent' : Stage, stage.reset = (.ok (), sent) ∧ stage'.reset = (.ok (), sent') ∧
      (∀ (i : Nat) (actor actor' : Actor), sent.roster[i]? = some actor →
        sent'.roster[i]? = some actor' → actor.template = actor'.template →
        actor.pose.rotation = 0 ∧ actor'.pose.rotation = 0 ∧
        actor.message = .none ∧ actor'.message = .none ∧
        ∃ template early early', settings.template? actor.template = some template ∧
          (∀ other, (actor.id, other) ∈ (Stage.new settings).arrivals calls ↔ other = early) ∧
          (∀ other, (actor'.id, other) ∈ (Stage.new settings').arrivals calls' ↔ other = early') ∧
          actor.pose.position = stage.bounds.clamp (early.bounds.clamp template.home) ∧
          actor'.pose.position = stage.bounds.clamp (early'.bounds.clamp template.home) ∧
          (early.bounds = early'.bounds → actor.pose.position = actor'.pose.position) ∧
          (actor.pose.position = stage.bounds.clamp template.home ↔
            ¬ Cramps early stage.bounds template.home) ∧
          (actor'.pose.position = stage.bounds.clamp template.home ↔
            ¬ Cramps early' stage.bounds template.home)) ∧
      sent.reset = (.ok (), sent) ∧
      ∀ moves : List Call, (∀ call ∈ moves, call.isMove = true) →
        (stage.afterAll moves).settings = stage.settings →
        (stage.afterAll moves).reset = (.ok (), sent) := by
  intro stage stage' idle idle' width height size
  have housed : Housed settings ((Stage.new settings).arrivals calls) stage :=
    (housed_new settings).afterAll calls
  have housed' : Housed settings' ((Stage.new settings').arrivals calls') stage' :=
    (housed_new settings').afterAll calls'
  have sameBounds : stage'.bounds = stage.bounds := by
    simp only [bounds, Settings.bounds, width, height, size]
  refine ⟨stage.sentHome, stage'.sentHome, reset_of_idle idle, reset_of_idle idle', ?_,
    reset_sentHome idle,
    fun moves all back => (reset_afterAll idle all back).trans (reset_of_idle idle)⟩
  intro i actor actor' listed listed' same
  obtain ⟨template, early, known, came, pose, message⟩ :=
    housed.sentHome (mem_actors_of_mem_roster (List.mem_of_getElem? listed))
  obtain ⟨template', early', known', came', pose', message'⟩ :=
    housed'.sentHome (mem_actors_of_mem_roster (List.mem_of_getElem? listed'))
  -- A name stands for the same template in both settings.
  obtain rfl : template = template' := by
    rw [← same, Settings.template?, ← templates] at known'
    exact Option.some.inj (known.symm.trans known')
  rw [sameBounds] at pose'
  refine ⟨by rw [pose], by rw [pose'], message, message', template, early, early', known,
    fun other => ⟨fun again => mem_arrivals_unique came again, fun same => same ▸ came⟩,
    fun other => ⟨fun again => mem_arrivals_unique came' again, fun same => same ▸ came'⟩,
    by rw [pose], by rw [pose'], fun sameEarly => by rw [pose, pose', sameEarly], ?_, ?_⟩
  · rw [pose]
    exact clamp_clamp_eq_iff_not_cramps
  · rw [pose']
    exact clamp_clamp_eq_iff_not_cramps

end

/-- A drag and two resizes later the dog returns to where it does without them. -/
theorem draggedDog_forgets :
    let stage := (Stage.new .standard).afterAll
      [.add "dog", .drag ⟨0, 1⟩ ⟨700, 300⟩, .resize 300 200, .resize 1000 550]
    let stage' := (Stage.new .standard).afterAll [.add "dog"]
    ∃ sent sent' : Stage, stage.reset = (.ok (), sent) ∧ stage'.reset = (.ok (), sent') ∧
      (∀ actor actor' : Actor, sent.roster[0]? = some actor → sent'.roster[0]? = some actor' →
        actor.template = actor'.template → actor.pose.position = actor'.pose.position) ∧
      sent.reset = (.ok (), sent) := by
  intro stage stage'
  obtain ⟨sent, sent', resets, resets', back, again, _⟩ :=
    @reset_forgets _ _ .standard .standard
      [.add "dog", .drag ⟨0, 1⟩ ⟨700, 300⟩, .resize 300 200, .resize 1000 550] [.add "dog"] rfl
      (by decide +kernel) (by decide +kernel) (by decide +kernel) (by decide +kernel)
      (by decide +kernel)
  refine ⟨sent, sent', resets, resets', fun actor actor' listed listed' same => ?_, again⟩
  obtain ⟨_, _, _, _, _, early, early', _, came, came', _, _, alike, _⟩ :=
    back 0 actor actor' listed listed' same
  -- both came to a stage of the standard size
  have all : (Stage.new .standard).arrivals
      [.add "dog", .drag ⟨0, 1⟩ ⟨700, 300⟩, .resize 300 200, .resize 1000 550] =
        [(⟨0, 1⟩, .standard)] := rfl
  have all' : (Stage.new .standard).arrivals [.add "dog"] = [(⟨0, 1⟩, .standard)] := rfl
  have first := (came early).mpr rfl
  have first' := (came' early').mpr rfl
  rw [all, List.mem_singleton] at first
  rw [all', List.mem_singleton] at first'
  obtain ⟨_, rfl⟩ := Prod.mk.inj first
  obtain ⟨_, rfl⟩ := Prod.mk.inj first'
  exact alike rfl

/-- The dog comes to a stage that is too small for its home, and returns to where it came to when
    the stage has grown. -/
theorem crampedDog_remembers :
    let cramped := (Stage.new .standard).afterAll [.resize 150 550, .add "dog", .resize 1000 550]
    let roomy := (Stage.new .standard).afterAll [.add "dog"]
    cramped.running = false ∧ roomy.running = false ∧ cramped.settings = roomy.settings ∧
      cramped.roster.map (·.template) = roomy.roster.map (·.template) ∧
      ∃ sent sent' : Stage, cramped.reset = (.ok (), sent) ∧ roomy.reset = (.ok (), sent') ∧
        sent.roster.map (·.pose.position.x) = [50] ∧
        sent'.roster.map (·.pose.position.x) = [200] := by
  intro cramped roomy
  have idle : cramped.running = false := by decide +kernel
  have idle' : roomy.running = false := by decide +kernel
  refine ⟨idle, idle', rfl, by decide +kernel, cramped.sentHome, roomy.sentHome,
    reset_of_idle idle, reset_of_idle idle', by decide +kernel, by decide +kernel⟩

end Troupe.Stage
