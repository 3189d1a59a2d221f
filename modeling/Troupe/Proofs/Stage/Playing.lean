import Troupe.Proofs.Geometry.Bounds
import Troupe.Proofs.Script.Cursor
import Troupe.Proofs.Stage.Lookup

/-! # Every run plays on its own actor

A frame plays all runs one after the other on one list of actors. A run changes the pose and
the message of its own actor and nothing else, so as long as no actor has two runs the order
does not matter: every run and every actor come out as if nobody else had been there.

* `Run.Settled` — what carrying on with an activity can come to.
* `Run.Played` — what a run does in one frame, with the actions whose effects it starts.
* `Run.played` — a run does this, the actions being those of `Run.begun`.
* `playRuns_eq` — a frame, actor by actor and run by run.
-/

namespace Troupe.Stage

open Troupe.Geometry
open Troupe.Number (Trigonometry)
open Troupe.Script
open Troupe.Playback

/-! ## Carrying on -/

namespace Run

/-- What carrying on with an activity can come to: there is none; a tween shows a pose and
    goes on, or is over; a bubble stays up, or goes away. -/
inductive Settled (run : Run) (actor : Actor) (now : Nat) (bounds : Bounds) :
    Run × Actor × Progress → Prop
  | free (idle : run.activity = none) : Settled run actor now bounds (run, actor, .done)
  | moving {tween later : Tween} {pose : Pose} (busy : run.activity = some (.tween tween))
      (stepped : tween.step now bounds = (later, pose, .pending)) :
      Settled run actor now bounds
        ({ run with activity := some (.tween later) }, { actor with pose }, .pending)
  | arrived {tween later : Tween} {pose : Pose} (busy : run.activity = some (.tween tween))
      (stepped : tween.step now bounds = (later, pose, .done)) :
      Settled run actor now bounds ({ run with activity := none }, { actor with pose }, .done)
  | showing {pause later : Pause} (busy : run.activity = some (.bubble pause))
      (stepped : pause.step now = (later, .pending)) :
      Settled run actor now bounds ({ run with activity := some (.bubble later) }, actor, .pending)
  | cleared {pause later : Pause} (busy : run.activity = some (.bubble pause))
      (stepped : pause.step now = (later, .done)) :
      Settled run actor now bounds
        ({ run with activity := none }, { actor with message := .none }, .done)

theorem settled (run : Run) (actor : Actor) (now : Nat) (bounds : Bounds) :
    Settled run actor now bounds (run.settle actor now bounds) := by
  unfold settle
  split
  case h_1 idle => exact .free idle
  case h_2 activity busy =>
    cases activity with
    | tween tween =>
      rcases stepped : tween.step now bounds with ⟨later, pose, _ | _⟩
      · simpa [Activity.step, stepped] using Settled.moving busy stepped
      · simpa [Activity.step, stepped] using Settled.arrived busy stepped
    | bubble pause =>
      rcases stepped : pause.step now with ⟨later, _ | _⟩
      · simpa [Activity.step, stepped] using Settled.showing busy stepped
      · simpa [Activity.step, stepped] using Settled.cleared busy stepped

variable {run later : Run} {actor shown : Actor} {now : Nat} {bounds : Bounds}
  {progress : Progress}

theorem Settled.run_eq (settled : Settled run actor now bounds (later, shown, progress)) :
    later = { run with activity := later.activity } := by
  cases settled <;> rfl

theorem Settled.actor_eq (settled : Settled run actor now bounds (later, shown, progress)) :
    shown = { actor with pose := shown.pose, message := shown.message } := by
  cases settled <;> rfl

theorem Settled.activity_eq_none (settled : Settled run actor now bounds (later, shown, .done)) :
    later.activity = none := by
  cases settled with
  | free idle => exact idle
  | arrived | cleared => rfl

theorem Settled.keeps (settled : Settled run actor now bounds (later, shown, progress))
    (inside : bounds.Keeps actor.pose.position) : bounds.Keeps shown.pose.position := by
  -- A tween shows clamped poses only, whether it goes on or is over.
  have tweened {tween next : Tween} {pose : Pose} {progress : Progress}
      (stepped : tween.step now bounds = (next, pose, progress)) :
      bounds.Keeps pose.position := by
    obtain ⟨-, rfl, -⟩ := by simpa [Tween.step] using stepped
    exact bounds.keeps_clamp _
  cases settled with
  | free | showing | cleared => exact inside
  | moving _ stepped => exact tweened stepped
  | arrived _ stepped => exact tweened stepped

/-! ## Starting an effect -/

theorem begin_actor (run : Run) (actor : Actor) (effect : Effect) (tempo : Tempo) :
    (run.begin actor effect tempo).2 =
      { actor with message := (run.begin actor effect tempo).2.message } := by
  cases effect <;> rfl

theorem begin_run (run : Run) (actor : Actor) (effect : Effect) (tempo : Tempo) :
    (run.begin actor effect tempo).1 =
      { run with
        pose := effect.finalPose run.pose
        activity := (run.begin actor effect tempo).1.activity } := by
  cases effect <;> rfl

/-! ## Going as far as possible -/

variable [Trigonometry]

/-- The actions whose effects a run starts at time `now`, in order. -/
def begun (now : Nat) (tempo : Tempo) : (budget : Nat) → Run → Actor → List Action
  | 0, _, _ => []
  | budget + 1, run, actor =>
    match run.settle actor now tempo.bounds with
    | (_, _, .pending) => []
    | (run, actor, .done) =>
      match run.cursor.next with
      | (none, _) => []
      | (some action, cursor) =>
        let (run, actor) :=
          begin { run with cursor } actor (action.effect run.pose tempo.bounds) tempo
        action :: begun now tempo budget run actor

/-- What a run does in one frame: `Played now tempo budget run actor actions later shown`
    says that it starts the effects of `actions` and becomes `later`, the actor being left
    as `shown`. -/
inductive Played (now : Nat) (tempo : Tempo) :
    Nat → Run → Actor → List Action → Run → Actor → Prop
  -- It has started as many effects as it may, and only carries on.
  | spent {run later : Run} {actor shown : Actor} {progress : Progress}
      (settled : Settled run actor now tempo.bounds (later, shown, progress)) :
      Played now tempo 0 run actor [] later shown
  -- What it is busy with lasts longer than this frame.
  | waiting {budget : Nat} {run later : Run} {actor shown : Actor}
      (settled : Settled run actor now tempo.bounds (later, shown, .pending)) :
      Played now tempo (budget + 1) run actor [] later shown
  -- Nothing is left; the cursor steps off the stack.
  | ended {budget : Nat} {run later : Run} {actor shown : Actor} {cursor : Cursor}
      (settled : Settled run actor now tempo.bounds (later, shown, .done))
      (asked : later.cursor.next = (none, cursor)) :
      Played now tempo (budget + 1) run actor [] { later with cursor } shown
  -- It starts an effect and goes on from there.
  | began {budget : Nat} {run later last : Run} {actor shown final : Actor} {action : Action}
      {cursor : Cursor} {actions : List Action}
      (settled : Settled run actor now tempo.bounds (later, shown, .done))
      (asked : later.cursor.next = (some action, cursor))
      (goesOn : Played now tempo budget
        (({ later with cursor }).begin shown (action.effect later.pose tempo.bounds) tempo).1
        (({ later with cursor }).begin shown (action.effect later.pose tempo.bounds) tempo).2
        actions last final) :
      Played now tempo (budget + 1) run actor (action :: actions) last final

theorem played (now : Nat) (tempo : Tempo) (budget : Nat) (run : Run) (actor : Actor) :
    Played now tempo budget run actor (run.begun now tempo budget actor)
      (run.play now tempo budget actor).1 (run.play now tempo budget actor).2 := by
  -- The cases are those of `play`: what settling comes to, then what the cursor returns.
  induction budget generalizing run actor with
  | zero => exact .spent (settled run actor now tempo.bounds)
  | succ budget ih =>
    have carriedOn := settled run actor now tempo.bounds
    unfold begun play
    rcases done : run.settle actor now tempo.bounds with ⟨later, shown, _ | _⟩
    · rw [done] at carriedOn
      exact .waiting carriedOn
    · rw [done] at carriedOn
      rcases asked : later.cursor.next with ⟨_ | action, cursor⟩
      · simpa only [asked] using Played.ended carriedOn asked
      · simpa only [asked] using Played.began carriedOn asked (ih _ _)

theorem play_of_isFinished {run : Run} (finished : run.isFinished = true) (now : Nat)
    (tempo : Tempo) (budget : Nat) (actor : Actor) :
    run.play now tempo budget actor = (run, actor) := by
  simp only [isFinished, Bool.and_eq_true, Option.isNone_iff_eq_none] at finished
  have settles : run.settle actor now tempo.bounds = (run, actor, .done) := by
    simp only [settle, finished.1]
  cases budget with
  | zero => simp only [play, settles]
  | succ budget => simp only [play, settles, Cursor.next_of_isFinished finished.2]

/-! ## What a run cannot change -/

section Frame

variable {now budget : Nat} {tempo : Tempo} {run later : Run} {actor shown : Actor}
  {actions : List Action}

theorem Played.run_actor (played : Played now tempo budget run actor actions later shown) :
    later.actor = run.actor := by
  induction played with
  | spent settled | waiting settled | ended settled => rw [settled.run_eq]
  | began settled _ _ ih => rw [ih, begin_run, settled.run_eq]

theorem Played.actor_eq (played : Played now tempo budget run actor actions later shown) :
    shown = { actor with pose := shown.pose, message := shown.message } := by
  induction played with
  | spent settled | waiting settled | ended settled => exact settled.actor_eq
  | began settled _ _ ih =>
    rw [begin_actor, settled.actor_eq] at ih
    exact ih

theorem Played.actor_id (played : Played now tempo budget run actor actions later shown) :
    shown.id = actor.id := by
  rw [played.actor_eq]

theorem Played.keeps (played : Played now tempo budget run actor actions later shown)
    (inside : tempo.bounds.Keeps actor.pose.position) :
    tempo.bounds.Keeps shown.pose.position := by
  induction played with
  | spent settled | waiting settled | ended settled => exact settled.keeps inside
  | began settled _ _ ih =>
    apply ih
    rw [begin_actor]
    exact settled.keeps inside

end Frame

end Run

/-! ## All runs -/

def replacedBy (shown other : Actor) : Actor :=
  if other.id = shown.id then shown else other

theorem replacedBy_id (shown other : Actor) : (replacedBy shown other).id = other.id := by
  unfold replacedBy
  split
  case isTrue same => exact same.symm
  case isFalse => rfl

theorem replacedBy_of_ne {shown other : Actor} (differs : other.id ≠ shown.id) :
    replacedBy shown other = other := by
  simp only [replacedBy, differs, if_false]

theorem find?_map_replacedBy {shown : Actor} {id : ActorId} (differs : id ≠ shown.id)
    (actors : List Actor) :
    (actors.map (replacedBy shown)).find? (·.id = id) = actors.find? (·.id = id) := by
  rw [find?_map_of_key (replacedBy_id shown)]
  cases found : actors.find? (·.id = id) with
  | none => rfl
  | some actor =>
    have same : actor.id = id := by simpa using List.find?_some found
    rw [Option.map_some, replacedBy_of_ne (same ▸ differs)]

variable [Trigonometry]

def playedBy (now : Nat) (tempo : Tempo) (runs : List Run) (actor : Actor) : Actor :=
  match runs.find? (·.actor = actor.id) with
  | some run => (run.play now tempo tempo.budget actor).2
  | none => actor

def playedOn (now : Nat) (tempo : Tempo) (actors : List Actor) (run : Run) : Run :=
  match actors.find? (·.id = run.actor) with
  | some actor => (run.play now tempo tempo.budget actor).1
  | none => run

section Frame

variable (now : Nat) (tempo : Tempo) {runs : List Run} {actors : List Actor} {run : Run}
  {actor : Actor}

theorem playedBy_eq (runs : List Run) (actor : Actor) :
    playedBy now tempo runs actor =
      { actor with
        pose := (playedBy now tempo runs actor).pose
        message := (playedBy now tempo runs actor).message } := by
  unfold playedBy
  split
  case h_1 run _ => exact (run.played now tempo tempo.budget actor).actor_eq
  case h_2 => rfl

theorem playedBy_id (runs : List Run) (actor : Actor) :
    (playedBy now tempo runs actor).id = actor.id := by
  rw [playedBy_eq]

theorem playedOn_actor (actors : List Actor) (run : Run) :
    (playedOn now tempo actors run).actor = run.actor := by
  unfold playedOn
  split
  case h_1 actor _ => exact (run.played now tempo tempo.budget actor).run_actor
  case h_2 => rfl

theorem playedBy_of_run (found : runs.find? (·.actor = actor.id) = some run) :
    playedBy now tempo runs actor = (run.play now tempo tempo.budget actor).2 := by
  simp only [playedBy, found]

theorem playedBy_of_absent (absent : actor.id ∉ runs.map (·.actor)) :
    playedBy now tempo runs actor = actor := by
  simp only [playedBy, find?_eq_none_iff.mpr absent]

theorem playedBy_cons_of_ne (differs : actor.id ≠ run.actor) :
    playedBy now tempo (run :: runs) actor = playedBy now tempo runs actor := by
  simp only [playedBy, List.find?_cons, Ne.symm differs, decide_false]

theorem playedOn_of_actor (found : actors.find? (·.id = run.actor) = some actor) :
    playedOn now tempo actors run = (run.play now tempo tempo.budget actor).1 := by
  simp only [playedOn, found]

end Frame

/-- A frame, actor by actor and run by run. The induction is on the runs: the first one
    changes its own actor only, and no later run looks at that actor. -/
theorem playRuns_eq (now : Nat) (tempo : Tempo) {actors : List Actor} {runs : List Run}
    (distinct : (actors.map (·.id)).Nodup) (once : (runs.map (·.actor)).Nodup) :
    playRuns now tempo actors runs =
      (actors.map (playedBy now tempo runs), runs.map (playedOn now tempo actors)) := by
  induction runs generalizing actors with
  | nil => simp [playRuns, show playedBy now tempo [] = id from rfl]
  | cons run rest ih =>
    simp only [List.map_cons, List.nodup_cons] at once
    obtain ⟨notAgain, once⟩ := once
    cases found : actors.find? (·.id = run.actor) with
    | none =>
      have absent := find?_eq_none_iff.mp found
      simp only [playRuns, playRun, found, ih distinct once, Prod.mk.injEq, List.map_cons]
      refine ⟨List.map_congr_left fun actor member => ?_, by simp only [playedOn, found]⟩
      have differs : actor.id ≠ run.actor := fun same =>
        absent (same ▸ List.mem_map_of_mem member)
      rw [playedBy_cons_of_ne _ _ differs]
    | some owner =>
      obtain ⟨present, owns⟩ := (find?_eq_some_iff distinct).mp found
      obtain ⟨later, shown, played⟩ : ∃ later shown,
          run.play now tempo tempo.budget owner = (later, shown) := ⟨_, _, rfl⟩
      have shownId : shown.id = run.actor := by
        have sameId := (run.played now tempo tempo.budget owner).actor_id
        rw [played] at sameId
        exact sameId.trans owns
      have stillDistinct : ((actors.map (replacedBy shown)).map (·.id)).Nodup := by
        simpa [Function.comp_def, replacedBy_id] using distinct
      have first : playRun now tempo actors run = (actors.map (replacedBy shown), later) := by
        simp only [playRun, found, played]
        rfl
      simp only [playRuns, first, ih stillDistinct once, List.map_cons, List.map_map,
        Prod.mk.injEq, List.cons.injEq]
      refine ⟨List.map_congr_left fun actor member => ?_, ?_,
        List.map_congr_left fun other member => ?_⟩
      -- An actor is the owner of the first run, which no later run plays on, or it is not.
      · by_cases isOwner : actor.id = run.actor
        · have same : actor = owner :=
            Option.some.inj (((find?_eq_some_iff distinct).mpr ⟨member, isOwner⟩).symm.trans found)
          have replaced : replacedBy shown owner = shown := by
            simp only [replacedBy, owns, shownId, if_true]
          rw [Function.comp_apply, same, replaced,
            playedBy_of_absent _ _ (by rw [shownId]; exact notAgain),
            show playedBy now tempo (run :: rest) owner = (run.play now tempo tempo.budget owner).2
              from playedBy_of_run _ _ (by simp [owns]), played]
        · rw [Function.comp_apply, replacedBy_of_ne (by rw [shownId]; exact isOwner),
            playedBy_cons_of_ne _ _ isOwner]
      · rw [playedOn_of_actor _ _ found, played]
      · have differs : other.actor ≠ shown.id := fun same =>
          notAgain (shownId ▸ same ▸ List.mem_map_of_mem member)
        simp only [playedOn, find?_map_replacedBy differs]

end Troupe.Stage
