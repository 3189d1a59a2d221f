import Troupe.Number.Angle
import Troupe.Proofs.Stage.Frame

/-! # Changing the choreography on the way

A tick asks the choreography one thing only: whether actors swap when they come close. A change
that leaves the answer as it is commutes with every tick, so the performance in progress goes on
as if nothing had been changed. A change to another answer shows as soon as two actors are close
to each other: they swap where they would not have, or the other way round.

* `frames` — what is seen after each tick in the course of some calls.
* `tick_choose`, `frames_choose` — a change that makes no difference to any tick.
* `startedPair_notices` — two actors that notice every other change.
* `changes_unnoticed_iff` — which changes no performance notices.
-/

namespace Troupe.Stage

open Troupe.Number (Trigonometry)
open Troupe.Script
open Troupe.Swap (Choreography)
open scoped Troupe.IdPool

/-! ## What is seen -/

def Call.isTick : Call → Bool
  | .tick _ => true
  | _ => false

section

variable [LawfulIdSource]

/-- Everything about the actors, and whether a performance is in progress. -/
def view (stage : Stage) : List Actor × Bool :=
  (stage.actors, stage.running)

/-- What is seen after each tick in the course of some calls. -/
def frames [Trigonometry] (stage : Stage) : List Call → List (List Actor × Bool)
  | [] => []
  | call :: rest =>
    let next := stage.after call
    if call.isTick then next.view :: next.frames rest else next.frames rest

/-! ## Changes that make no difference -/

variable {stage : Stage} {choreography : Choreography}

theorem exchange_choose (stage : Stage) (choreography : Choreography)
    (pair : ActorId × ActorId) :
    (stage.choose choreography).exchange pair = (stage.exchange pair).choose choreography := by
  simp only [exchange, show ∀ id, (stage.choose choreography).actor? id = stage.actor? id
    from fun _ => rfl]
  split <;> rfl

theorem foldl_exchange_choose (pairs : List (ActorId × ActorId)) (stage : Stage)
    (choreography : Choreography) :
    pairs.foldl exchange (stage.choose choreography) =
      (pairs.foldl exchange stage).choose choreography := by
  induction pairs generalizing stage with
  | nil => rfl
  | cons pair rest ih => rw [List.foldl_cons, exchange_choose, ih, List.foldl_cons]

theorem meet_choose
    (same : choreography.swapsClose = stage.settings.choreography.swapsClose) :
    (stage.choose choreography).meet = stage.meet.choose choreography := by
  have met : (stage.choose choreography).met = stage.met := by
    simp only [Stage.met, choose, Settings.withChoreography, same, placed, actor?]
  have ongoing : (stage.choose choreography).ongoing = stage.ongoing := by
    simp only [Stage.ongoing, choose, Settings.withChoreography, same, placed, actor?]
  rw [meet_eq_foldl, meet_eq_foldl, met, ongoing, ← foldl_exchange_choose]
  rfl

theorem conclude_choose (stage : Stage) (choreography : Choreography) :
    (stage.choose choreography).conclude = stage.conclude.choose choreography := by
  simp only [conclude, show (stage.choose choreography).runs = stage.runs from rfl]
  split <;> rfl

theorem choose_self (stage : Stage) : stage.choose stage.settings.choreography = stage := rfl

variable [Trigonometry]

theorem tick_choose
    (same : choreography.swapsClose = stage.settings.choreography.swapsClose) (now : Nat) :
    (stage.choose choreography).tick now = (stage.tick now).choose choreography := by
  have stillRunning : (stage.choose choreography).running = stage.running := rfl
  cases running : stage.running with
  | false => rw [tick_of_idle running, tick_of_idle (stillRunning.trans running)]
  | true =>
    have advances : (stage.choose choreography).advance now =
        (stage.advance now).choose choreography := rfl
    have answers : choreography.swapsClose =
        (stage.advance now).settings.choreography.swapsClose := same
    rw [tick_of_running running, tick_of_running (stillRunning.trans running), advances,
      meet_choose answers, conclude_choose]

theorem actors_tick_choose {other : Choreography}
    (same : choreography.swapsClose = other.swapsClose) (stage : Stage) (now : Nat) :
    ((stage.choose choreography).tick now).actors = ((stage.choose other).tick now).actors := by
  have answers : choreography.swapsClose =
      (stage.choose other).settings.choreography.swapsClose := same
  have ticks : (stage.choose choreography).tick now =
      ((stage.choose other).tick now).choose choreography := tick_choose answers now
  rw [ticks]
  rfl

theorem actors_of_frames {now : Nat}
    (same : stage.frames [.choose choreography, .tick now] = stage.frames [.tick now]) :
    ((stage.choose choreography).tick now).actors = (stage.tick now).actors :=
  congrArg Prod.fst (List.singleton_inj.mp same)

/-- Whether actors that come close swap is the same at every tick of some calls as it is at
    first. Changes between two ticks may do as they like. -/
def AnswersAlike (stage : Stage) (calls : List Call) (answer : Bool) : Prop :=
  ∀ done now rest, calls = done ++ .tick now :: rest →
    (stage.afterAll done).settings.choreography.swapsClose = answer

theorem AnswersAlike.tail {call : Call} {rest : List Call} {answer : Bool}
    (alike : stage.AnswersAlike (call :: rest) answer) :
    (stage.after call).AnswersAlike rest answer :=
  fun done now others splits => alike (call :: done) now others (by rw [splits]; rfl)

/-- The induction is on the calls, with the choreography that they have come to. -/
theorem frames_choose {calls : List Call}
    (plain : ∀ call ∈ calls, call.isTick = true ∨ ∃ other, call = .choose other)
    (alike : (stage.choose choreography).AnswersAlike calls
      stage.settings.choreography.swapsClose) :
    (stage.choose choreography).frames calls = stage.frames (calls.filter Call.isTick) := by
  induction calls generalizing stage choreography with
  | nil => rfl
  | cons call rest ih =>
    have others : ∀ call ∈ rest, call.isTick = true ∨ ∃ other, call = .choose other :=
      fun call member => plain call (List.mem_cons_of_mem _ member)
    have later := alike.tail
    rcases plain call List.mem_cons_self with ticks | ⟨other, rfl⟩
    · cases call with
      | tick now =>
        have same : choreography.swapsClose = stage.settings.choreography.swapsClose :=
          alike [] now rest rfl
        have next : (stage.choose choreography).after (.tick now) =
            (stage.tick now).choose choreography := tick_choose same now
        rw [next, ← tick_settings stage now] at later
        simp only [frames, next, Call.isTick, if_true, ih others later]
        rfl
      | add | remove | select | drag | resize | reset | append | insert | appendInside | erase
      | moveBlock | mergeParams | choose | start => cases ticks
    -- The next choreography takes the place of the one before.
    · have next : (stage.choose choreography).after (.choose other) = stage.choose other := rfl
      rw [next] at later
      exact ih others later

theorem choreography_of_plain {changes : List Choreography} {calls : List Call}
    (plain : ∀ call ∈ calls, call.isTick = true ∨ ∃ next ∈ changes, call = .choose next) :
    (stage.afterAll calls).settings.choreography = stage.settings.choreography ∨
      (stage.afterAll calls).settings.choreography ∈ changes := by
  induction calls generalizing stage with
  | nil => exact .inl rfl
  | cons call rest ih =>
    have later := @ih (stage.after call) fun other member =>
      plain other (List.mem_cons_of_mem _ member)
    rcases plain call List.mem_cons_self with ticks | ⟨next, listed, rfl⟩
    · cases call with
      | tick now =>
        have same : (stage.after (.tick now)).settings = stage.settings := tick_settings stage now
        rwa [same] at later
      | add | remove | select | drag | resize | reset | append | insert | appendInside | erase
      | moveBlock | mergeParams | choose | start => cases ticks
    · rcases later with kept | changed
      · exact .inr (kept ▸ listed)
      · exact .inr changed

end

/-! ## Changes that make one -/

/-- An actor that is to walk to another one, who is to wait and then turn. -/
def waitingPair (current : Choreography) : Stage :=
  Stage.afterAll (.new .standard)
    [.choose current, .add "cat", .add "dog", .append ⟨0, 1⟩ (Block.goTo 200 0 ⟨0⟩).1,
      .append ⟨1, 1⟩ (Block.say "wait" 1 ⟨1⟩).1, .append ⟨1, 1⟩ (Block.turn 90 ⟨2⟩).1]

def startedPair (current : Choreography) : Stage :=
  (waitingPair current).after (.start 0)

theorem reachable_startedPair (current : Choreography) :
    Reachable .standard (startedPair current) := by
  have waiting : Reachable .standard (waitingPair current) := Reachable.new.afterAll _
  exact waiting.after _

theorem choreography_startedPair (current : Choreography) :
    (startedPair current).settings.choreography = current := by
  rw [startedPair, settings_after_start]
  rfl

/-- The two are close when the first has almost arrived, and whether they swap then is up to the
    choreography in force, whatever it was when they started. -/
theorem scripts_of_startedPair (current next : Choreography) :
    (((startedPair current).choose next).tick 400000000).actors.map (·.script.length) =
      if next.swapsClose then [2, 1] else [1, 2] := by
  have either (answer : Bool) :
      (((startedPair current).choose (if answer then .proximity else .off)).tick
        400000000).actors.map (·.script.length) = if answer then [2, 1] else [1, 2] := by
    cases current <;> cases answer <;> decide +kernel
  -- Of the others it matters only whether they answer like the one or like the other.
  have answers : next.swapsClose =
      (if next.swapsClose then Choreography.proximity else .off).swapsClose := by
    cases next <;> rfl
  rw [actors_tick_choose answers, either]

theorem startedPair_notices {current next : Choreography}
    (differs : next.swapsClose ≠ current.swapsClose) :
    (startedPair current).frames [.choose next, .tick 400000000] ≠
      (startedPair current).frames [.tick 400000000] := by
  intro same
  have unchanged := choose_self (startedPair current)
  rw [choreography_startedPair] at unchanged
  have sameActors := actors_of_frames same
  have before := scripts_of_startedPair current current
  rw [unchanged, ← sameActors, scripts_of_startedPair] at before
  cases current <;> cases next <;> simp [Choreography.swapsClose] at before differs

/-! ## Which changes are noticed -/

/-- No performance in progress shows whether its choreography was changed on the way, however
    often and whenever. -/
def AreUnnoticed [Trigonometry] [LawfulIdSource] (current : Choreography)
    (changes : List Choreography) : Prop :=
  ∀ (settings : Settings) (stage : Stage), Reachable settings stage → stage.running = true →
    stage.settings.choreography = current → ∀ calls : List Call,
      (∀ call ∈ calls, call.isTick = true ∨ ∃ next ∈ changes, call = .choose next) →
        stage.frames calls = stage.frames (calls.filter Call.isTick)

/-- It is enough that all the choreographies that it is changed to let actors swap when they come
    close, or none does, like the one that it had. -/
theorem unnoticed_of_alike [Trigonometry] [LawfulIdSource] {current : Choreography}
    {changes : List Choreography}
    (alike : ∀ next ∈ changes, next.swapsClose = current.swapsClose) :
    AreUnnoticed current changes := by
  intro settings stage _ _ own calls plain
  have answers : stage.AnswersAlike calls stage.settings.choreography.swapsClose := by
    rintro done now rest rfl
    rcases @choreography_of_plain _ stage _ changes done fun call member =>
      plain call (List.mem_append_left _ member) with kept | changed
    · rw [kept]
    · rw [own]
      exact alike _ changed
  refine frames_choose (fun call member => ?_) answers
  exact (plain call member).imp_right fun ⟨next, _, chooses⟩ => ⟨next, chooses⟩

/-- Changes are never noticed exactly if the choreographies agree on whether actors swap when they
    come close; and if they agree, the changes go unnoticed whatever sine, cosine and identities
    there are. -/
theorem changes_unnoticed_iff (current : Choreography) (changes : List Choreography) :
    (AreUnnoticed current changes ↔ ∀ next ∈ changes, next.swapsClose = current.swapsClose) ∧
      ((∀ next ∈ changes, next.swapsClose = current.swapsClose) →
        ∀ [Trigonometry] [LawfulIdSource], AreUnnoticed current changes) := by
  refine ⟨⟨fun unnoticed next listed => ?_, unnoticed_of_alike⟩,
    fun alike => unnoticed_of_alike alike⟩
  refine Decidable.byContradiction fun differs => startedPair_notices differs ?_
  refine unnoticed .standard (startedPair current) (reachable_startedPair current) ?_
    (choreography_startedPair current) [.choose next, .tick 400000000] ?_
  · cases current <;> decide +kernel
  · simp [Call.isTick, listed]

/-- The second actor waits for a second and then turns. But if swaps are allowed once the two
    are on their way, they trade scripts when they get close, and it is the first one who turns,
    before the second one's second is over. -/
theorem startedPair_turns_elsewhere :
    let ticks : List Call := [.tick 400000000, .tick 500000000, .tick 1000000000]
    let seen (frames : List (List Actor × Bool)) :=
      frames.map fun frame => (frame.1.map (·.pose.rotation), frame.2)
    Reachable .standard (startedPair .off) ∧ (startedPair .off).running = true ∧
      seen ((startedPair .off).frames ticks) = [([0, 0], true), ([0, 0], true), ([0, 0], true)] ∧
      seen ((startedPair .off).frames (.choose .proximity :: ticks)) =
        [([0, 0], true), ([0, 0], true), ([90, 0], false)] ∧
      (startedPair .off).frames (.choose .proximity :: ticks) ≠
        (startedPair .off).frames ticks := by
  intro ticks seen
  have kept : seen ((startedPair .off).frames ticks) =
      [([0, 0], true), ([0, 0], true), ([0, 0], true)] := by decide +kernel
  have traded : seen ((startedPair .off).frames (.choose .proximity :: ticks)) =
      [([0, 0], true), ([0, 0], true), ([90, 0], false)] := by decide +kernel
  refine ⟨reachable_startedPair .off, by decide +kernel, kept, traded, fun same => ?_⟩
  rw [same, kept] at traded
  simp at traded

end Troupe.Stage
