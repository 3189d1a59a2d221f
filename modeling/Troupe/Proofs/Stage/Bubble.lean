import Troupe.Number.Angle
import Troupe.Proofs.Stage.EachActor
import Troupe.Proofs.Stage.Journal

/-! # Bubbles come and go with what is said

An actor shows a bubble exactly while its run waits for one to be over, and the bubble shows
what the effect begun last by that actor says. A frame keeps this: carrying on clears the
bubble with the pause, and starting an effect happens only when nothing is up. Swaps move
cursors and never what an actor is busy with, so no bubble changes hands.

A pause takes its starting time in the frame that begins it, so the bubble is up until the
first tick that comes late enough after that frame, and no later.

* `Voiced` — what message and activity of an actor have in common.
* `Run.Played.of_show` — a frame that says something, and what is left of it.
* `begunOver` — the effects that an actor's run starts in the course of some calls.
* `IsShowing.afterAll`, `IsShowing.tick_late` — a bubble before its time is over, and then.
-/

namespace Troupe.Script

/-! ## What is said is never empty -/

def Message.IsVisible (message : Message) : Prop :=
  message.text ≠ "" ∧ message.bubble ≠ .hidden

theorem Params.text_ne_empty (params : Params) (name : String) {fallback : String}
    (spoken : fallback ≠ "") : params.text name fallback ≠ "" := by
  unfold text
  cases params.get? name with
  | none => exact spoken
  | some value =>
    by_cases empty : value.asText = ""
    · simpa [empty] using spoken
    · simp [empty]

theorem Block.isVisible_of_action? {block : Block} {message : Message} {seconds : Float32}
    (acts : block.action? = some (.show message seconds)) : message.IsVisible := by
  cases kind : block.kind with
  | say =>
    simp [action?, kind] at acts
    rw [← acts.1]
    exact ⟨Params.text_ne_empty _ _ (by decide), by simp⟩
  | think =>
    simp [action?, kind] at acts
    rw [← acts.1]
    exact ⟨Params.text_ne_empty _ _ (by decide), by simp⟩
  | move | turn | goTo | loop | unknown => simp [action?, kind] at acts

end Troupe.Script

namespace Troupe.Stage

open Troupe.Geometry
open Troupe.Number (Trigonometry)
open Troupe.Script
open Troupe.Playback
open scoped Troupe.IdPool

/-! ## One actor -/

/-- What an actor shows, going by what it is busy with: a bubble for the effect begun last, for
    as long as that asks for, and nothing at all otherwise. -/
def Voiced (begun : List Action) (message : Message) : Option Activity → Prop
  | some (.bubble pause) => ∃ seconds, begun.getLast? = some (.show message seconds) ∧
      message.IsVisible ∧ pause.duration = (Pause.ofSeconds seconds).duration
  | some (.tween _) => message = .none
  | none => message = .none

/-- Whether a bubble that an activity waits for was put up at this time, or would be. -/
def StartsAt (now : Nat) (activity : Option Activity) : Prop :=
  ∀ pause, activity = some (.bubble pause) → pause.startedAt.getD now = now

namespace Run

variable {now budget : Nat} {run later : Run} {actor shown : Actor} {bounds : Bounds}
  {tempo : Tempo} {progress : Progress} {begun actions : List Action} {action : Action}
  {cursor : Cursor}

/-- A bubble is over once the time since it was put up is as long as its pause. Before that it
    stays as it is. -/
theorem Settled.of_bubble {pause : Pause} (busy : run.activity = some (.bubble pause))
    (settled : Settled run actor now bounds (later, shown, progress)) :
    (pause.duration ≤ now - pause.startedAt.getD now ∧ progress = .done ∧
        later.activity = none ∧ shown.message = .none) ∨
      (now - pause.startedAt.getD now < pause.duration ∧ progress = .pending ∧
        later.activity = some (.bubble ⟨pause.duration, some (pause.startedAt.getD now)⟩) ∧
        shown.message = actor.message) := by
  cases settled with
  | free idle => simp [busy] at idle
  | moving other | arrived other => simp [busy] at other
  | showing same stepped =>
    obtain rfl : pause = _ := by simpa [busy] using same
    simp [Pause.step] at stepped
    simp [← stepped.1]
    omega
  | cleared same stepped =>
    obtain rfl : pause = _ := by simpa [busy] using same
    simp [Pause.step] at stepped
    simp
    omega

theorem Settled.voiced (settled : Settled run actor now bounds (later, shown, progress))
    (voiced : Voiced begun actor.message run.activity) :
    Voiced begun shown.message later.activity := by
  cases settled with
  | free => exact voiced
  | moving busy | arrived busy =>
    rw [busy] at voiced
    exact voiced
  | showing busy stepped =>
    rw [busy] at voiced
    obtain ⟨seconds, last, visible, waits⟩ := voiced
    simp [Pause.step] at stepped
    exact ⟨seconds, last, visible, by rw [← stepped.1]; exact waits⟩
  | cleared => rfl

theorem Settled.startsAt (settled : Settled run actor now bounds (later, shown, progress))
    (starts : StartsAt now run.activity) : StartsAt now later.activity := by
  intro pause waits
  cases settled with
  | free => exact starts pause waits
  | moving | arrived | cleared => simp at waits
  | showing busy stepped =>
    have since := starts _ busy
    simp [Pause.step] at stepped
    obtain rfl : _ = pause := by simpa using waits
    simp [← stepped.1, since]

theorem startsAt_begin (run : Run) (actor : Actor) (effect : Effect) (tempo : Tempo) :
    StartsAt now (begin run actor effect tempo).1.activity := by
  intro pause waits
  cases effect with
  | move | turn => simp [begin] at waits
  | «show» message seconds =>
    obtain rfl : _ = pause := by simpa [begin] using waits
    rfl

variable [Trigonometry]

theorem voiced_begin (begun : List Action) (asked : run.cursor.next = (some action, cursor))
    (quiet : actor.message = .none) :
    let started := begin { run with cursor } actor (action.effect run.pose bounds) tempo
    Voiced (begun ++ [action]) started.2.message started.1.activity := by
  cases action with
  | walk | rotate | walkTo => exact quiet
  | «show» message seconds =>
    obtain ⟨block, acts⟩ := Cursor.exists_block_of_next asked
    exact ⟨seconds, List.getLast?_concat, Block.isVisible_of_action? acts, rfl⟩

theorem Played.voiced (played : Played now tempo budget run actor actions later shown)
    (voiced : Voiced begun actor.message run.activity) :
    Voiced (begun ++ actions) shown.message later.activity := by
  induction played generalizing begun with
  | spent settled | waiting settled | ended settled =>
    rw [List.append_nil]
    exact settled.voiced voiced
  | began settled asked _ ih =>
    have quiet := settled.voiced voiced
    rw [settled.activity_eq_none] at quiet
    rw [List.append_cons]
    exact ih (voiced_begin begun asked quiet)

theorem Played.startsAt (played : Played now tempo budget run actor actions later shown)
    (starts : StartsAt now run.activity) : StartsAt now later.activity := by
  induction played with
  | spent settled | waiting settled | ended settled => exact settled.startsAt starts
  | began _ _ _ ih => exact ih (startsAt_begin _ _ _ _)

/-- A frame before the time of a bubble is over leaves it up. One that comes later takes it
    away, so what is up after it was put up by an effect begun in it. -/
theorem Played.of_bubble {pause : Pause} (busy : run.activity = some (.bubble pause))
    (played : Played now tempo budget run actor actions later shown) :
    (pause.duration ≤ now - pause.startedAt.getD now ∧
        Voiced actions shown.message later.activity ∧ StartsAt now later.activity) ∨
      (now - pause.startedAt.getD now < pause.duration ∧ actions = [] ∧
        shown.message = actor.message ∧
        later.activity = some (.bubble ⟨pause.duration, some (pause.startedAt.getD now)⟩)) := by
  have nothing : StartsAt now none := fun _ impossible => nomatch impossible
  cases played with
  | spent settled | waiting settled | ended settled =>
    rcases settled.of_bubble busy with ⟨elapsed, _, free, quiet⟩ | ⟨early, _, waits, up⟩
    · simp only [free, quiet]
      exact .inl ⟨elapsed, rfl, nothing⟩
    · exact .inr ⟨early, rfl, up, waits⟩
  | began settled asked goesOn =>
    rcases settled.of_bubble busy with ⟨elapsed, _, free, quiet⟩ | ⟨_, impossible, _⟩
    · exact .inl ⟨elapsed, goesOn.voiced (voiced_begin [] asked quiet),
        goesOn.startsAt (startsAt_begin _ _ _ _)⟩
    · cases impossible

/-- What becomes of an effect that says something, in the frame that begins it: it is over
    within the frame if its pause is empty, and otherwise it is the last one of the frame and
    in progress at its end. -/
theorem Played.of_show {done rest : List Action} {message : Message} {seconds : Float32}
    (played : Played now tempo budget run actor actions later shown)
    (begins : actions = done ++ .show message seconds :: rest) :
    ((Pause.ofSeconds seconds).duration = 0 ∧ Voiced rest shown.message later.activity) ∨
      (0 < (Pause.ofSeconds seconds).duration ∧ rest = [] ∧ shown.message = message ∧
        later.activity = some (.bubble ⟨(Pause.ofSeconds seconds).duration, some now⟩)) := by
  induction played generalizing done with
  | spent | waiting | ended => simp at begins
  | began _ _ goesOn ih =>
    cases done with
    | cons =>
      obtain ⟨-, begins⟩ := by simpa using begins
      exact ih begins
    | nil =>
      obtain ⟨rfl, rfl⟩ := by simpa using begins
      -- What the effect puts up is carried on with at once, from this very time.
      rcases goesOn.of_bubble rfl with ⟨elapsed, voiced, _⟩ | ⟨early, rfl, up, waits⟩
      · exact .inl ⟨by simpa [Pause.ofSeconds, Pause.new] using elapsed, voiced⟩
      · exact .inr ⟨by simpa [Pause.ofSeconds, Pause.new] using early, rfl, up, waits⟩

end Run

def Voicing (begun : ActorId → List Action) (actor : Actor) (run : Option Run) : Prop :=
  Voiced (begun actor.id) actor.message (run.bind (·.activity))

theorem undisturbed_voicing (begun : ActorId → List Action) : Undisturbed (Voicing begun) where
  script _ voicing := voicing
  cursor _ voicing := voicing
  finished free voicing := by
    rw [Voicing, Option.bind_some, free] at voicing
    exact voicing

/-! ## The frames that calls play -/

section

variable [LawfulIdSource]

section

variable [Trigonometry]

/-- The stage that a call plays a frame on and the time of the frame. A start plays the first
    frame of what it launches. -/
def frame? (stage : Stage) : Call → Option (Stage × Nat)
  | .tick now => if stage.running then some (stage, now) else none
  | .start now =>
    if stage.running || stage.cast.isEmpty then none
    else some (stage.launch stage.currentLineup, now)
  | _ => none

/-- The actions whose effects an actor's run starts in a frame. -/
def begunAt (stage : Stage) (now : Nat) (id : ActorId) : List Action :=
  match stage.run? id with
  | some run => stage.begunBy now run
  | none => []

def begunIn (stage : Stage) (call : Call) (id : ActorId) : List Action :=
  match stage.frame? call with
  | some (opening, now) => opening.begunAt now id
  | none => []

def begunOver (stage : Stage) (id : ActorId) : List Call → List Action
  | [] => []
  | call :: rest => stage.begunIn call id ++ (stage.after call).begunOver id rest

end

def messageOf (stage : Stage) (id : ActorId) : Option Message :=
  (stage.actor? id).map (·.message)

def activityOf (stage : Stage) (id : ActorId) : Option Activity :=
  (stage.run? id).bind (·.activity)

variable {stage : Stage} {call : Call} {id : ActorId} {message : Message}

section

variable [Trigonometry]

theorem begunAt_of_run {actor : Actor} {run : Run} (shows : stage.actor? id = some actor)
    (plays : stage.run? id = some run) (now : Nat) :
    stage.begunAt now id = run.begun now stage.tempo stage.tempo.budget actor := by
  simp [begunAt, begunBy, plays, actor_of_run? plays, shows]

namespace Coherent

theorem after_of_frame (coherent : stage.Coherent) {opening : Stage} {now : Nat}
    (plays : stage.frame? call = some (opening, now)) :
    stage.after call = opening.tick now ∧ opening.Coherent ∧ opening.running = true ∧
      (opening = stage ∨ stage.running = false ∧ opening = stage.launch stage.currentLineup) := by
  cases call with
  | tick =>
    obtain ⟨running, rfl, rfl⟩ := by simpa [frame?] using plays
    exact ⟨rfl, coherent, running, .inl rfl⟩
  | start time =>
    obtain ⟨⟨idle, scripted⟩, rfl, rfl⟩ := by simpa [frame?] using plays
    refine ⟨?_, coherent.launched, rfl, .inr ⟨idle, rfl⟩⟩
    rcases start_cases stage time with ⟨running, _⟩ | ⟨_, empty, _⟩ | ⟨_, _, result⟩
    · simp [idle] at running
    · simp [empty] at scripted
    · simp [after, Stage.call, result]
  | add | remove | select | drag | resize | reset | append | insert | appendInside | erase
  | moveBlock | mergeParams | choose => simp [frame?] at plays

theorem tick_shows (coherent : stage.Coherent) (running : stage.running = true) (now : Nat)
    {actor : Actor} {run : Run} (shows : stage.actor? id = some actor)
    (plays : stage.run? id = some run) :
    ∃ later shown,
      run.Played now stage.tempo stage.tempo.budget actor (stage.begunAt now id) later shown ∧
      (stage.tick now).messageOf id = some shown.message ∧
      (stage.tick now).activityOf id = later.activity := by
  obtain ⟨later, shown, script, played, showsNow, goesOn⟩ :=
    coherent.tick_of_run running now shows plays
  rw [← begunAt_of_run shows plays] at played
  refine ⟨later, shown, played, by simp [messageOf, showsNow], ?_⟩
  rcases goesOn with ⟨cursor, _, playsNow⟩ | ⟨free, absent⟩
  · simp [activityOf, playsNow]
  · simp [activityOf, absent, free]

end Coherent

/-! ## Everyone's bubble -/

namespace EachActor

variable {begun : ActorId → List Action}

theorem voicing_launch (each : stage.EachActor (Voicing begun)) (coherent : stage.Coherent)
    (idle : stage.running = false) :
    (stage.launch stage.currentLineup).EachActor (Voicing begun) := by
  refine each.launched coherent idle (fun _ quiet => quiet) fun part _ quiet => ?_
  cases walks : part.handOff with
  | none => simpa [Voicing, Part.run, walks] using quiet
  | some pose => simpa [Voicing, Voiced, Part.run, walks] using quiet

theorem voicing_tick (each : stage.EachActor (Voicing begun)) (coherent : stage.Coherent)
    (running : stage.running = true) (now : Nat) :
    (stage.tick now).EachActor (Voicing fun id => begun id ++ stage.begunAt now id) := by
  refine each.ticked coherent running (undisturbed_voicing _) (fun _ _ quiet => quiet) ?_
  intro actor run later shown shows plays voicing played
  rw [← begunAt_of_run shows plays] at played
  rw [Voicing, played.actor_id]
  exact played.voiced voicing

/-- A call that plays no frame puts up no bubble and takes none away, except that a reset
    clears all messages when nobody is busy. -/
theorem voicing_outcome (each : stage.EachActor (Voicing begun)) (coherent : stage.Coherent)
    {changed : Stage} (still : stage.frame? call = none) (outcome : Outcome stage call changed) :
    changed.EachActor (Voicing begun) := by
  cases outcome with
  | refused | selected | chosen => exact each
  | added => exact each.added coherent rfl
  | removed => exact each.removed rfl rfl
  | dragged => exact each.modified (fun _ => rfl) fun _ _ voicing => voicing
  | resized => exact each.mapped rfl rfl (fun _ => rfl) fun _ _ voicing => voicing
  | sentHome idle =>
    refine each.mapped rfl rfl (fun _ => rfl) fun actor _ _ => ?_
    simp [Voicing, run?, coherent.idle idle, Actor.reset, Voiced]
  | edited => exact each.edited (undisturbed_voicing begun) _
  | started idle scripted => simp [frame?, idle, scripted] at still
  | ticked =>
    rw [tick_of_idle (by simpa [frame?] using still)]
    exact each

theorem voicing_after (each : stage.EachActor (Voicing begun)) (coherent : stage.Coherent)
    (call : Call) :
    (stage.after call).EachActor (Voicing fun id => begun id ++ stage.begunIn call id) := by
  cases plays : stage.frame? call with
  | some frame =>
    obtain ⟨opening, now⟩ := frame
    obtain ⟨becomes, opens, running, launches⟩ := coherent.after_of_frame plays
    have opened : opening.EachActor (Voicing begun) := by
      rcases launches with rfl | ⟨idle, rfl⟩
      · exact each
      · exact each.voicing_launch coherent idle
    simp only [becomes, begunIn, plays]
    exact opened.voicing_tick opens running now
  | none =>
    simp only [begunIn, plays, List.append_nil]
    exact each.voicing_outcome coherent plays (outcome_after stage call)

theorem voicing_afterAll (each : stage.EachActor (Voicing begun)) (coherent : stage.Coherent)
    (calls : List Call) :
    (stage.afterAll calls).EachActor
      (Voicing fun id => begun id ++ stage.begunOver id calls) := by
  induction calls generalizing stage begun with
  | nil =>
    simp only [begunOver, List.append_nil]
    exact each
  | cons call rest ih =>
    simp only [begunOver, ← List.append_assoc]
    exact ih (each.voicing_after coherent call) (coherent.outcome (outcome_after stage call))

end EachActor

end

/-! ## One bubble -/

/-- A bubble with this message is up, and its actor waits for this pause to be over. -/
structure IsShowing (stage : Stage) (id : ActorId) (message : Message) (pause : Pause) : Prop where
  up : stage.messageOf id = some message
  waits : stage.activityOf id = some (.bubble pause)

/-- Calls that leave a bubble of an actor up: all but the actor's removal and a tick that comes
    when the bubble was up for as long as it is to be. -/
def Call.Spares (id : ActorId) (since wait : Nat) : Call → Prop
  | .remove other => other ≠ id
  | .tick now => now - since < wait
  | _ => True

theorem running_of_activityOf (coherent : stage.Coherent) {activity : Activity}
    (busy : stage.activityOf id = some activity) : stage.running = true := by
  by_contra idle
  have nobody := coherent.idle (by simpa using idle)
  simp [activityOf, run?, nobody] at busy

theorem messageOf_of_map {changed : Stage} {change : Actor → Actor}
    (actors : changed.actors = stage.actors.map change)
    (keepsId : ∀ actor, (change actor).id = actor.id)
    (keepsMessage : ∀ actor, (change actor).message = actor.message) :
    changed.messageOf id = stage.messageOf id := by
  rw [messageOf, actor?, actors, find?_map_of_key keepsId]
  simp [messageOf, actor?, Function.comp_def, keepsMessage]

theorem messageOf_modify {other : ActorId} {change : Actor → Actor}
    (keepsId : ∀ actor, (change actor).id = actor.id)
    (keepsMessage : ∀ actor, (change actor).message = actor.message) :
    (stage.modify other change).messageOf id = stage.messageOf id := by
  refine messageOf_of_map rfl (fun actor => ?_) (fun actor => ?_)
  · by_cases own : actor.id = other <;> simp [own, keepsId]
  · by_cases own : actor.id = other <;> simp [own, keepsMessage]

namespace IsShowing

variable {pause : Pause} {since wait : Nat}

theorem exists_run (showing : stage.IsShowing id message pause) :
    ∃ actor run, stage.actor? id = some actor ∧ actor.message = message ∧
      stage.run? id = some run ∧ run.activity = some (.bubble pause) := by
  obtain ⟨actor, shows, spoken⟩ := Option.map_eq_some_iff.mp showing.up
  obtain ⟨run, plays, busy⟩ := Option.bind_eq_some_iff.mp showing.waits
  exact ⟨actor, run, shows, spoken, plays, busy⟩

variable [Trigonometry]

theorem tick_early (showing : stage.IsShowing id message ⟨wait, some since⟩)
    (coherent : stage.Coherent) {now : Nat} (early : now - since < wait) :
    (stage.tick now).IsShowing id message ⟨wait, some since⟩ := by
  have running := running_of_activityOf coherent showing.waits
  obtain ⟨actor, run, shows, rfl, plays, busy⟩ := showing.exists_run
  obtain ⟨later, shown, played, up, waits⟩ := coherent.tick_shows running now shows plays
  rcases played.of_bubble busy with ⟨elapsed, _⟩ | ⟨_, _, same, goesOn⟩
  · exact absurd early (Nat.not_lt.mpr elapsed)
  · exact ⟨up.trans (congrArg some same), waits.trans goesOn⟩

/-- A tick that comes late enough takes the bubble away, and what is up after it was put up by
    an effect begun in it. -/
theorem tick_late (showing : stage.IsShowing id message ⟨wait, some since⟩)
    (coherent : stage.Coherent) {now : Nat} (elapsed : wait ≤ now - since) (lasts : 0 < wait) :
    ∃ other, (stage.tick now).messageOf id = some other ∧
      Voiced (stage.begunAt now id) other ((stage.tick now).activityOf id) ∧
      (stage.tick now).activityOf id ≠ some (.bubble ⟨wait, some since⟩) := by
  have running := running_of_activityOf coherent showing.waits
  obtain ⟨actor, run, shows, rfl, plays, busy⟩ := showing.exists_run
  obtain ⟨later, shown, played, up, waits⟩ := coherent.tick_shows running now shows plays
  rcases played.of_bubble busy with ⟨_, voiced, starts⟩ | ⟨early, _⟩
  · refine ⟨shown.message, up, waits ▸ voiced, fun same => ?_⟩
    have put : since = now := starts _ (waits.symm.trans same)
    omega
  · exact absurd early (Nat.not_lt.mpr elapsed)

theorem outcome (showing : stage.IsShowing id message ⟨wait, some since⟩)
    (coherent : stage.Coherent) {changed : Stage} (spares : call.Spares id since wait)
    (outcome : Outcome stage call changed) :
    changed.IsShowing id message ⟨wait, some since⟩ := by
  have running := running_of_activityOf coherent showing.waits
  cases outcome with
  | refused | selected | chosen => exact ⟨showing.up, showing.waits⟩
  | added =>
    obtain ⟨actor, shows, spoken⟩ := Option.map_eq_some_iff.mp showing.up
    refine ⟨?_, showing.waits⟩
    rw [messageOf, actor?, List.find?_append, show stage.actors.find? (·.id = id) = some actor
      from shows]
    simpa using spoken
  | @removed other _ _ _ =>
    have differs : id ≠ other := Ne.symm spares
    refine ⟨Eq.trans ?_ showing.up, Eq.trans ?_ showing.waits⟩
    · exact congrArg (Option.map _) (find?_filter_of_ne differs stage.actors)
    · exact congrArg (Option.bind · _) (find?_filter_of_ne differs stage.runs)
  | dragged | edited =>
    refine ⟨Eq.trans ?_ showing.up, showing.waits⟩
    exact messageOf_modify (fun _ => rfl) fun _ => rfl
  | resized =>
    refine ⟨Eq.trans ?_ showing.up, showing.waits⟩
    exact messageOf_of_map rfl (fun _ => rfl) fun _ => rfl
  | sentHome idle | started idle => simp [idle] at running
  | ticked => exact showing.tick_early coherent spares

theorem afterAll (showing : stage.IsShowing id message ⟨wait, some since⟩)
    (coherent : stage.Coherent) {calls : List Call}
    (spares : ∀ call ∈ calls, call.Spares id since wait) :
    (stage.afterAll calls).IsShowing id message ⟨wait, some since⟩ := by
  induction calls generalizing stage with
  | nil => exact showing
  | cons call rest ih =>
    have outcome := outcome_after stage call
    exact ih (showing.outcome coherent (spares call List.mem_cons_self) outcome)
      (coherent.outcome outcome) fun other member => spares other (List.mem_cons_of_mem _ member)

end IsShowing

variable [Trigonometry]

/-- A frame that starts an effect that says something, as the actor's message and activity show
    it afterwards. -/
theorem Coherent.tick_of_show (coherent : stage.Coherent) (running : stage.running = true)
    {now : Nat} {done rest : List Action} {seconds : Float32}
    (begins : stage.begunAt now id = done ++ .show message seconds :: rest) :
    ((Pause.ofSeconds seconds).duration = 0 ∧ ∃ other,
        (stage.tick now).messageOf id = some other ∧
          Voiced rest other ((stage.tick now).activityOf id)) ∨
      (0 < (Pause.ofSeconds seconds).duration ∧ rest = [] ∧
        (stage.tick now).IsShowing id message
          ⟨(Pause.ofSeconds seconds).duration, some now⟩) := by
  cases plays : stage.run? id with
  | none => simp [begunAt, plays] at begins
  | some run =>
    obtain ⟨actor, shows⟩ := coherent.exists_player plays
    obtain ⟨later, shown, played, up, waits⟩ := coherent.tick_shows running now shows plays
    rcases played.of_show begins with ⟨empty, voiced⟩ | ⟨lasts, last, same, busy⟩
    · exact .inl ⟨empty, shown.message, up, waits ▸ voiced⟩
    · exact .inr ⟨lasts, last, up.trans (congrArg some same), waits.trans busy⟩

/-! ## All bubbles -/

/-- After any calls, an actor that waits for a bubble to be over shows what the effect begun
    last by its run says, and any other shows nothing; without a performance nobody shows
    anything.

    From then on, if the frame that a call plays begins an effect that says something, and its
    pause is empty, the bubble is over when the call is. If not, the bubble stays as it is
    through all later calls up to the first tick that comes as long after that frame as the
    pause asks for. In that tick it goes away, so what is shown next is said by an effect begun
    in that tick. -/
theorem bubble_lasts_as_long_as_its_pause (settings : Settings) (calls : List Call) :
    let stage := (Stage.new settings).afterAll calls
    (∀ actor ∈ stage.actors,
      Voiced ((Stage.new settings).begunOver actor.id calls) actor.message
        (stage.activityOf actor.id)) ∧
    (stage.running = false → ∀ actor ∈ stage.actors, actor.message = .none) ∧
    ∀ (call : Call) (opening : Stage) (now : Nat) (id : ActorId) (done rest : List Action)
      (message : Message) (seconds : Float32),
      stage.frame? call = some (opening, now) →
      opening.begunAt now id = done ++ .show message seconds :: rest →
      let shown := stage.after call
      let wait := (Pause.ofSeconds seconds).duration
      (wait = 0 → ∃ other, shown.messageOf id = some other ∧
        Voiced rest other (shown.activityOf id)) ∧
      (0 < wait → rest = [] ∧ ∀ later : List Call, (∀ call ∈ later, call.Spares id now wait) →
        (shown.afterAll later).IsShowing id message ⟨wait, some now⟩ ∧
        ∀ last, wait ≤ last - now → ∃ other,
          ((shown.afterAll later).tick last).messageOf id = some other ∧
            Voiced ((shown.afterAll later).begunAt last id) other
              (((shown.afterAll later).tick last).activityOf id) ∧
            ((shown.afterAll later).tick last).activityOf id ≠
              some (.bubble ⟨wait, some now⟩)) := by
  intro stage
  have fresh : (Stage.new settings).Coherent := coherent_new settings
  have coherent : stage.Coherent := fresh.afterAll calls
  have nobody : (Stage.new settings).EachActor (Voicing fun _ => []) :=
    fun _ member => nomatch member
  have each : stage.EachActor (Voicing fun id => (Stage.new settings).begunOver id calls) :=
    nobody.voicing_afterAll fresh calls
  refine ⟨each, ?idle, ?shows⟩
  case idle =>
    intro idle actor member
    have voicing := each actor member
    simpa [run?, coherent.idle idle, Voicing, Voiced] using voicing
  case shows =>
    intro call opening now id done rest message seconds plays begins shown wait
    obtain ⟨becomes, opens, running, _⟩ := coherent.after_of_frame plays
    have played := opens.tick_of_show running begins
    have shownCoherent : shown.Coherent := coherent.outcome (outcome_after stage call)
    rw [← becomes] at played
    rcases played with ⟨empty, gone⟩ | ⟨lasts, last, showing⟩
    · exact ⟨fun _ => gone, fun lasts => absurd empty (Nat.pos_iff_ne_zero.mp lasts)⟩
    · refine ⟨fun empty => absurd empty (Nat.pos_iff_ne_zero.mp lasts), fun _ => ⟨last, ?_⟩⟩
      intro later spares
      have stays := showing.afterAll shownCoherent spares
      exact ⟨stays, fun _ elapsed => stays.tick_late (shownCoherent.afterAll later) elapsed lasts⟩

end

deriving instance DecidableEq for Point, Script.Action

/-- One actor says something for two seconds while another walks up to it, and the two trade
    scripts. -/
def greeting : List Call :=
  [.choose .proximity, .add "cat", .add "dog", .append ⟨0, 1⟩ (Block.say "Hello" 2 ⟨0⟩).1,
    .append ⟨1, 1⟩ (Block.goTo 10 0 ⟨1⟩).1, .append ⟨1, 1⟩ (Block.turn 90 ⟨2⟩).1]

def greetingPair : Stage :=
  Stage.afterAll (.new .standard) greeting

/-- The two have met, and the one that speaks was moved by hand. -/
def metPair : Stage :=
  (greetingPair.after (.start 0)).afterAll [.tick 400000000, .drag ⟨0, 1⟩ ⟨5, 5⟩]

/-- The other one's cursor comes to the actor, and the bubble stays with it until its time. -/
theorem greeting_lasts_as_long_as_its_pause :
    greetingPair.frame? (.start 0) = some (greetingPair.launch greetingPair.currentLineup, 0) ∧
      (greetingPair.launch greetingPair.currentLineup).begunAt 0 ⟨0, 1⟩ =
        [] ++ .show ⟨"Hello", .speech⟩ 2 :: [] ∧
      (metPair.cursorOf ⟨0, 1⟩).upcoming = [.rotate 90] ∧
      metPair.IsShowing ⟨0, 1⟩ ⟨"Hello", .speech⟩ ⟨2000000000, some 0⟩ ∧
      ∃ other, (metPair.tick 2000000000).messageOf ⟨0, 1⟩ = some other ∧
        Voiced (metPair.begunAt 2000000000 ⟨0, 1⟩) other
          ((metPair.tick 2000000000).activityOf ⟨0, 1⟩) := by
  have idle : greetingPair.running = false := by decide +kernel
  have scripted : greetingPair.cast.isEmpty = false := by decide +kernel
  have plays : greetingPair.frame? (.start 0) =
      some (greetingPair.launch greetingPair.currentLineup, 0) := by
    simp [frame?, idle, scripted]
  have begins : (greetingPair.launch greetingPair.currentLineup).begunAt 0 ⟨0, 1⟩ =
      [] ++ .show ⟨"Hello", .speech⟩ 2 :: [] := by
    decide +kernel
  have wait : (Pause.ofSeconds 2).duration = 2000000000 := by decide +kernel
  obtain ⟨_, _, shows⟩ := bubble_lasts_as_long_as_its_pause .standard greeting
  obtain ⟨_, lasting⟩ := shows _ _ _ _ _ _ _ _ plays begins
  rw [wait] at lasting
  obtain ⟨_, stays⟩ := lasting (by decide)
  obtain ⟨showing, ends⟩ := stays [.tick 400000000, .drag ⟨0, 1⟩ ⟨5, 5⟩] (by simp [Call.Spares])
  obtain ⟨other, up, voiced, _⟩ := ends 2000000000 (by decide)
  exact ⟨plays, begins, by decide +kernel, showing, other, up, voiced⟩

end Troupe.Stage
