import Troupe.Proofs.Script.Cursor
import Troupe.Proofs.Stage.InProgress
import Troupe.Proofs.Stage.Registry
import Troupe.Proofs.Stage.Watched

/-! # Without swaps on the way everybody plays alone

The runs of a performance are played one after the other on one list of actors, and end together.
Yet without swaps between actors that come close, an actor is only up to the ticks, to the sizes of
the stage and to what is done to the actor itself: what the others do, and what is done to them,
cannot be told from it. Even the end of the performance cannot: a run that has to wait for the end of
the others is finished, and a finished run does nothing.

* `Call.directs`, `Call.concerns` — the calls that direct a performance, and those that an actor
  has to do with.
* `exists_change` — what a call makes of its addressee.
* `Coherent.tick_of_busy`, `Coherent.tick_of_rest` — a tick, as an actor sees it that is still to
  play, and one that is not.
* `AlikeFor` — two stages that one actor cannot tell apart.
* `solo_unseen` — two histories that differ in what is done to the others.
-/

namespace Troupe.Stage

open Troupe.Number (Trigonometry)
open Troupe.Script
open scoped Troupe.IdPool

/-! ## Calls -/

/-- Calls that start a performance, undo what it did or change its choreography. -/
def Call.directs : Call → Bool
  | .start _ | .reset | .choose _ => true
  | _ => false

/-- The ticks, the changes of size and the calls that are addressed to an actor. -/
def Call.concerns (id : ActorId) : Call → Bool
  | .tick _ | .resize _ _ => true
  | call => call.addressee? = some id

theorem Call.concerns_addressee {call : Call} {id : ActorId}
    (addressed : call.addressee? = some id) :
    call.concerns id = true := by
  cases call with
  | tick | resize => rfl
  | add | remove | select | drag | reset | append | insert | appendInside | erase | moveBlock
  | mergeParams | choose | start => simpa [concerns] using addressed

section

variable [LawfulIdSource] {stage changed : Stage} {call : Call} {id : ActorId} {actor : Actor}
  {run : Run}

section

variable [Trigonometry]

/-- An edit changes the script of its addressee. What it makes of the script depends on the script
    only. -/
theorem actor?_after_edit {target : ActorId} {edit : List Block → Except Failure Unit × List Block}
    (made : stage.call call = stage.editScript target edit) (id : ActorId) :
    (stage.after call).actor? id = (stage.actor? id).map fun actor =>
      if id = target then { actor with script := (edit actor.script).2 } else actor := by
  rw [after, made]
  rcases editScript_cases stage target edit with ⟨absent, result⟩ | ⟨owner, shows, result⟩
  · rw [result]
    cases shows : stage.actor? id with
    | none => rfl
    | some actor =>
      have differs : id ≠ target := by
        rintro rfl
        rw [absent] at shows
        cases shows
      rw [Option.map_some, if_neg differs]
  · rw [result, actor?_setScript]
    refine Option.map_congr fun actor found => ?_
    by_cases own : id = target
    · rw [own, shows] at found
      cases found
      rfl
    · rw [if_neg own, if_neg own]

/-- What a call makes of its addressee is up to the settings and to the addressee, and nobody else is
    changed. -/
theorem exists_change {target : ActorId} (addressed : call.addressee? = some target)
    (remains : call ≠ .remove target) :
    ∃ change : Settings → Actor → Actor, ∀ (stage : Stage) (id : ActorId),
      (stage.after call).actor? id = (stage.actor? id).map fun actor =>
        if id = target then change stage.settings actor else actor := by
  cases edits : call.isEdit with
  | true =>
    obtain ⟨owner, edit, same, made⟩ := exists_edit edits
    obtain rfl : owner = target := Option.some.inj (same.symm.trans addressed)
    exact ⟨fun _ actor => { actor with script := (edit actor.script).2 },
      fun stage id => actor?_after_edit (made stage) id⟩
  | false =>
    cases call with
    | remove => cases addressed; exact absurd rfl remains
    | select owner =>
      refine ⟨fun _ actor => actor, fun stage id => ?_⟩
      simp only [ite_self, Option.map_id_fun', id_eq, after, Stage.call, select]
      cases stage.actor? owner <;> rfl
    | drag _ position =>
      cases addressed
      refine ⟨fun settings actor => actor.movedTo (settings.bounds.clamp position),
        fun stage id => ?_⟩
      simp only [after, Stage.call, withoutAnswer, drag]
      cases shows : stage.actor? target with
      | none => by_cases own : id = target <;> simp [own, shows]
      | some actor =>
        refine actor?_modify ?_ stage target id
        exact fun _ => rfl
    | append | insert | appendInside | erase | moveBlock | mergeParams => cases edits
    | add | resize | reset | choose | start | tick => cases addressed

theorem rest_outcome {target : ActorId} (outcome : Outcome stage call changed)
    (addressed : call.addressee? = some target) (remains : call ≠ .remove target) :
    changed.runs = stage.runs ∧ changed.settings = stage.settings := by
  cases outcome with
  | refused | selected | dragged | edited => exact ⟨rfl, rfl⟩
  | removed => cases addressed; exact absurd rfl remains
  | added | resized | sentHome | chosen | started | ticked => cases addressed

theorem Coherent.gone_after_remove (coherent : stage.Coherent) (id : ActorId) :
    (stage.after (.remove id)).actor? id = none ∧ (stage.after (.remove id)).run? id = none ∧
      (stage.after (.remove id)).settings = stage.settings := by
  cases live : stage.actor? id with
  | none =>
    rw [(after_remove_of_absent live).2]
    refine ⟨live, ?_, rfl⟩
    cases plays : stage.run? id with
    | none => rfl
    | some run =>
      obtain ⟨actor, shows⟩ := coherent.exists_player plays
      rw [live] at shows
      cases shows
  | some actor =>
    rw [(after_remove live).2]
    exact ⟨by simp [actor?], by simp [run?], rfl⟩

end

/-! ## Ticks -/

/-- The run of an actor, unless it is finished. -/
def busy? (stage : Stage) (id : ActorId) : Option Run :=
  (stage.run? id).filter fun run => !run.isFinished

theorem busy?_conclude (stage : Stage) (id : ActorId) :
    stage.conclude.busy? id = stage.busy? id := by
  rcases conclude_cases stage with ⟨finished, concludes⟩ | ⟨_, concludes⟩
  · rw [concludes, busy?, busy?, show stage.dismiss.run? id = none from rfl]
    cases plays : stage.run? id with
    | none => rfl
    | some run =>
      have done : run.isFinished = true :=
        List.all_eq_true.mp finished run (List.mem_of_find?_eq_some plays)
      simp [Option.filter_some, done]
  · rw [concludes]

namespace Coherent

variable [Trigonometry]

theorem tick_of_busy (coherent : stage.Coherent)
    (apart : stage.settings.choreography.swapsClose = false) (now : Nat)
    (shows : stage.actor? id = some actor) (busy : stage.busy? id = some run) :
    (stage.tick now).actor? id = some (run.play now stage.tempo stage.tempo.budget actor).2 ∧
      (stage.tick now).busy? id =
        (some (run.play now stage.tempo stage.tempo.budget actor).1).filter
          fun run => !run.isFinished := by
  obtain ⟨plays, unfinished⟩ := Option.filter_eq_some_iff.mp busy
  have running : stage.running = true :=
    coherent.running_of_hasUnfinished (hasUnfinished_eq_true_iff.mpr
      ⟨run, List.mem_of_find?_eq_some plays, by simpa using unfinished⟩)
  obtain ⟨showsNow, playsNow⟩ := coherent.advance_of_playing now shows plays
  rw [tick_of_not_swapsClose running apart, busy?_conclude, busy?, playsNow, actor?,
    conclude_actors]
  exact ⟨showsNow, rfl⟩

theorem tick_of_rest (coherent : stage.Coherent)
    (apart : stage.settings.choreography.swapsClose = false) (now : Nat)
    (rests : stage.busy? id = none) :
    (stage.tick now).actor? id = stage.actor? id ∧ (stage.tick now).busy? id = none := by
  cases running : stage.running with
  | false => exact ⟨by rw [tick_of_idle running], by rw [tick_of_idle running, rests]⟩
  | true =>
    rw [tick_of_not_swapsClose running apart, busy?_conclude, busy?, actor?, conclude_actors]
    cases plays : stage.run? id with
    | none =>
      obtain ⟨showsNow, absent⟩ := coherent.advance_of_absent now plays
      exact ⟨showsNow, by rw [absent, Option.filter_none]⟩
    | some run =>
      have finished : run.isFinished = true := by simpa [busy?, plays] using rests
      obtain ⟨actor, shows⟩ := coherent.exists_player plays
      obtain ⟨showsNow, playsNow⟩ := coherent.advance_of_playing now shows plays
      rw [Run.play_of_isFinished finished] at showsNow playsNow
      exact ⟨showsNow.trans shows.symm, by simp [playsNow, finished]⟩

end Coherent

/-! ## Known actors -/

/-- An identity that was handed out, whether or not its actor is still on the stage. It will not be
    handed out again. -/
def Knows (stage : Stage) (id : ActorId) : Prop :=
  ∃ made gone, Registered made gone stage ∧ id ∈ made

namespace Knows

theorem coherent (knows : stage.Knows id) : stage.Coherent := by
  obtain ⟨_, _, registered, _⟩ := knows
  exact registered.coherent

theorem ne_next (knows : stage.Knows id) : (IdSource.take stage.ids).1 ≠ id := by
  obtain ⟨_, _, registered, member⟩ := knows
  rintro rfl
  exact LawfulIdSource.fresh registered.issued member

variable [Trigonometry]

theorem after (knows : stage.Knows id) (call : Call) : (stage.after call).Knows id := by
  obtain ⟨_, _, registered, member⟩ := knows
  exact ⟨_, _, registered.after call, List.mem_append_left _ member⟩

/-- Whoever comes, goes or is changed, it is somebody else. -/
theorem after_elsewhere (knows : stage.Knows id) (unconcerned : call.concerns id = false)
    (undirected : call.directs = false) :
    (stage.after call).actor? id = stage.actor? id ∧ (stage.after call).run? id = stage.run? id ∧
      (stage.after call).settings = stage.settings := by
  cases addressed : call.addressee? with
  | some target =>
    have differs : id ≠ target := by
      rintro rfl
      rw [Call.concerns_addressee addressed] at unconcerned
      cases unconcerned
    -- Of the calls with an addressee all but a removal change it in place.
    by_cases leaves : call = .remove target
    · subst leaves
      cases live : stage.actor? target with
      | none => simp only [(after_remove_of_absent live).2, and_self]
      | some actor =>
        rw [(after_remove live).2]
        exact ⟨find?_filter_of_ne differs _, find?_filter_of_ne differs _, rfl⟩
    · obtain ⟨change, changes⟩ := exists_change addressed leaves
      obtain ⟨runs, settings⟩ := rest_outcome (outcome_after stage call) addressed leaves
      refine ⟨?_, by rw [run?, run?, runs], settings⟩
      simp [changes, differs]
  | none =>
    cases call with
    | add name =>
      cases known : stage.settings.template? name with
      | none => simp only [(after_add_of_unknown known).2, and_self]
      | some template =>
        rw [(after_add known).2]
        refine ⟨?_, rfl, rfl⟩
        simp [actor?, newcomer, knows.ne_next]
    | tick | resize => cases unconcerned
    | reset | choose | start => cases undirected
    | remove | select | drag | append | insert | appendInside | erase | moveBlock
    | mergeParams => cases addressed

end Knows

theorem knows_of_mem [Trigonometry] {settings : Settings} (reachable : Reachable settings stage)
    (live : id ∈ stage.actors.map (·.id)) : stage.Knows id := by
  obtain ⟨made, gone, registered⟩ := exists_registered reachable
  exact ⟨made, gone, registered, (registered.mem_iff.mp live).1⟩

/-! ## Stages that one actor cannot tell apart -/

structure AlikeFor (id : ActorId) (one other : Stage) : Prop where
  knows : one.Knows id
  knowsOther : other.Knows id
  settings : one.settings = other.settings
  apart : other.settings.choreography.swapsClose = false
  actor : one.actor? id = other.actor? id
  busy : one.busy? id = other.busy? id

namespace AlikeFor

variable {one other : Stage}

theorem refl (knows : stage.Knows id)
    (apart : stage.settings.choreography.swapsClose = false) : AlikeFor id stage stage :=
  ⟨knows, knows, rfl, apart, rfl, rfl⟩

theorem tempo_eq (alike : AlikeFor id one other) : one.tempo = other.tempo := by
  simp only [tempo, bounds, alike.settings]

variable [Trigonometry]

theorem ticked (alike : AlikeFor id one other) (now : Nat) :
    AlikeFor id (one.after (.tick now)) (other.after (.tick now)) := by
  have ⟨knows, knowsOther, settings, apart, same, sameRun⟩ := alike
  have apartOne : one.settings.choreography.swapsClose = false := settings ▸ apart
  have sameSettings : (one.tick now).settings = (other.tick now).settings := by
    rw [tick_settings, tick_settings, settings]
  have apartNow : (other.tick now).settings.choreography.swapsClose = false := by
    rwa [tick_settings]
  have seen : (one.tick now).actor? id = (other.tick now).actor? id ∧
      (one.tick now).busy? id = (other.tick now).busy? id := by
    cases busy : other.busy? id with
    | none =>
      obtain ⟨shows, rests⟩ := knows.coherent.tick_of_rest apartOne now (sameRun.trans busy)
      obtain ⟨showsOther, restsOther⟩ := knowsOther.coherent.tick_of_rest apart now busy
      exact ⟨shows.trans (same.trans showsOther.symm), rests.trans restsOther.symm⟩
    | some run =>
      obtain ⟨plays, _⟩ := Option.filter_eq_some_iff.mp busy
      obtain ⟨actor, shows⟩ := knowsOther.coherent.exists_player plays
      have one := knows.coherent.tick_of_busy apartOne now (same.trans shows) (sameRun.trans busy)
      have other := knowsOther.coherent.tick_of_busy apart now shows busy
      rw [alike.tempo_eq] at one
      exact ⟨one.1.trans other.1.symm, one.2.trans other.2.symm⟩
  exact ⟨knows.after _, knowsOther.after _, sameSettings, apartNow, seen.1, seen.2⟩

theorem resized (alike : AlikeFor id one other) (width height : Float32) :
    AlikeFor id (one.after (.resize width height)) (other.after (.resize width height)) := by
  have ⟨knows, knowsOther, settings, apart, same, sameRun⟩ := alike
  refine ⟨knows.after _, knowsOther.after _, ?_, apart, ?_, sameRun⟩
  · exact congrArg (·.withSize width height) settings
  · have resizes (stage : Stage) : (stage.after (.resize width height)).actor? id =
        (stage.actor? id).map fun actor =>
          actor.movedTo ((stage.settings.withSize width height).bounds.clamp actor.pose.position) := by
      refine find?_map_of_key ?_ id
      exact fun _ => rfl
    rw [resizes, resizes, same, settings]

theorem addressed (alike : AlikeFor id one other) (addressed : call.addressee? = some id) :
    AlikeFor id (one.after call) (other.after call) := by
  have ⟨knows, knowsOther, settings, apart, same, sameRun⟩ := alike
  by_cases leaves : call = .remove id
  · subst leaves
    obtain ⟨gone, ended, sameSettings⟩ := knows.coherent.gone_after_remove id
    obtain ⟨goneOther, endedOther, sameSettingsOther⟩ := knowsOther.coherent.gone_after_remove id
    refine ⟨knows.after _, knowsOther.after _, ?_, sameSettingsOther ▸ apart, ?_, ?_⟩
    · rw [sameSettings, sameSettingsOther, settings]
    · rw [gone, goneOther]
    · rw [busy?, busy?, ended, endedOther]
  · obtain ⟨change, changes⟩ := exists_change addressed leaves
    obtain ⟨runs, sameSettings⟩ := rest_outcome (outcome_after one call) addressed leaves
    obtain ⟨runsOther, sameSettingsOther⟩ :=
      rest_outcome (outcome_after other call) addressed leaves
    refine ⟨knows.after _, knowsOther.after _, ?_, sameSettingsOther ▸ apart, ?_, ?_⟩
    · rw [sameSettings, sameSettingsOther, settings]
    · rw [changes, changes, same, settings]
    · simp only [busy?, run?, runs, runsOther] at sameRun ⊢
      exact sameRun

theorem elsewhere (alike : AlikeFor id one other) (unconcerned : call.concerns id = false)
    (undirected : call.directs = false) : AlikeFor id (one.after call) other := by
  have ⟨knows, knowsOther, settings, apart, same, sameRun⟩ := alike
  obtain ⟨sameActor, sameRunOne, sameSettings⟩ := knows.after_elsewhere unconcerned undirected
  refine ⟨knows.after _, knowsOther, sameSettings.trans settings, apart, sameActor.trans same, ?_⟩
  rw [busy?, sameRunOne]
  exact sameRun

theorem concerned (alike : AlikeFor id one other) (concerns : call.concerns id = true) :
    AlikeFor id (one.after call) (other.after call) := by
  cases call with
  | tick now => exact alike.ticked now
  | resize width height => exact alike.resized width height
  | remove | select | drag | append | insert | appendInside | erase | moveBlock | mergeParams =>
    exact alike.addressed (by simpa [Call.concerns] using concerns)
  | add | reset | choose | start => cases concerns

end AlikeFor

/-! ## Whole performances -/

/-- In a performance without swaps on the way, nothing that is done to the others, and nothing that
    they do, can be told from what is seen of an actor after each tick. -/
theorem solo_unseen [Trigonometry] {settings : Settings} (reachable : Reachable settings stage)
    (live : id ∈ stage.actors.map (·.id))
    (apart : stage.settings.choreography = .off ∨ stage.settings.choreography = .predictive)
    {calls others : List Call} (undirected : ∀ call ∈ calls, call.directs = false)
    (undirectedOthers : ∀ call ∈ others, call.directs = false)
    (agree : calls.filter (Call.concerns id) = others.filter (Call.concerns id)) :
    stage.watched (·.actor? id) calls = stage.watched (·.actor? id) others := by
  have overlooks : Overlooks (·.actor? id) (Call.concerns id) (fun call => call.directs = false)
      (AlikeFor id) := {
    looks := AlikeFor.actor
    ticks := fun {call} ticks => by
      cases call with
      | tick => rfl
      | _ => cases ticks
    counted := fun concerns alike => alike.concerned concerns
    ignored := fun unconcerned undirected alike => alike.elsewhere unconcerned undirected }
  have unmixed : stage.settings.choreography.swapsClose = false := by
    rcases apart with off | ahead
    · rw [off]
      rfl
    · rw [ahead]
      rfl
  have alike : AlikeFor id stage stage := .refl (knows_of_mem reachable live) unmixed
  rw [overlooks.watched_filter undirected alike, agree,
    ← overlooks.watched_filter undirectedOthers alike]

end

/-- Of a walking actor and a waiting one, the second is dragged along and then removed. So the
    performance is over as soon as the first has arrived. -/
def disturbed : List Call :=
  [.tick 100000000, .drag ⟨1, 1⟩ ⟨50, 0⟩, .tick 200000000, .remove ⟨1, 1⟩, .drag ⟨0, 1⟩ ⟨10, 0⟩,
    .tick 300000000, .resize 250 200, .tick 600000000]

/-- The second one stays and gets more to do, and the performance goes on for it. -/
def joined : List Call :=
  [.add "ball", .tick 100000000, .append ⟨1, 1⟩ (Block.move 50 ⟨3⟩).1, .select ⟨1, 1⟩,
    .tick 200000000, .drag ⟨0, 1⟩ ⟨10, 0⟩, .tick 300000000, .resize 250 200, .tick 600000000]

theorem walker_undisturbed :
    Reachable .standard (startedPair .off) ∧ (startedPair .off).running = true ∧
      ((startedPair .off).afterAll disturbed).running = false ∧
      ((startedPair .off).afterAll joined).running = true ∧
      disturbed.filter (Call.concerns ⟨0, 1⟩) = joined.filter (Call.concerns ⟨0, 1⟩) ∧
      (startedPair .off).watched (·.actor? ⟨0, 1⟩) disturbed =
        (startedPair .off).watched (·.actor? ⟨0, 1⟩) joined := by
  have reachable := reachable_startedPair .off
  have agree : disturbed.filter (Call.concerns ⟨0, 1⟩) = joined.filter (Call.concerns ⟨0, 1⟩) := rfl
  exact ⟨reachable, by decide +kernel, by decide +kernel, by decide +kernel, agree,
    solo_unseen reachable (by decide +kernel) (.inl (choreography_startedPair .off)) (by decide)
      (by decide) agree⟩

end Troupe.Stage
