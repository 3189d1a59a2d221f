import Troupe.Number.Angle
import Troupe.Proofs.Stage.Arrival
import Troupe.Proofs.Stage.EachActor

/-! # Where effects start

A run records the pose in which its actor will be when it is done with what it is busy with, and
computes the next effect from that pose. The record is right when a performance starts, and
frames keep it right. A call between two frames can make it wrong: a drag of an actor that is not
on its way anywhere, and a resize that leaves the recorded position outside. The next effect then
starts from where the actor is not.

* `Run.departures` — the effects that a run starts, with the recorded pose and the actual one.
* `Run.IsOnCourse` — whether the record is right.
* `Run.IsDisplacedBy` — the calls that make it wrong.
* `OnCourse.after_iff` — a call puts nobody off course unless it displaces somebody.
* `departs_from_actual_pose_iff` — when effects start from where their actors are.
-/

namespace Troupe.Stage

open Troupe.Geometry
open Troupe.Number (Trigonometry)
open Troupe.Script
open Troupe.Playback
open scoped Troupe.IdPool

/-! ## One run -/

/-- The start of an effect: the pose that the effect is computed from, and the pose in which the
    actor is. -/
structure Departure where
  action : Action
  planned : Pose
  actual : Pose

namespace Run

/-- The pose in which an actor is once its run is done with what it is busy with, if the bounds
    stay as they are. -/
def arrival (run : Run) (actor : Actor) (bounds : Bounds) : Pose :=
  match run.activity with
  | some (.tween tween) => tween.finish.movedTo (bounds.clamp tween.finish.position)
  | _ => actor.pose

def IsOnCourse (run : Run) (actor : Actor) (bounds : Bounds) : Prop :=
  run.arrival actor bounds = run.pose

def IsAimed (run : Run) : Prop :=
  ∀ tween, run.activity = some (.tween tween) → tween.finish = run.pose

variable {run later : Run} {actor shown : Actor} {now budget : Nat} {bounds : Bounds}
  {tempo : Tempo} {progress : Progress} {action : Action} {actions : List Action}
  {cursor : Cursor}

/-! ## Carrying on -/

theorem Settled.pose_eq (settled : Settled run actor now bounds (later, shown, progress)) :
    later.pose = run.pose := by
  rw [settled.run_eq]

theorem Settled.arrival_eq (settled : Settled run actor now bounds (later, shown, progress)) :
    later.arrival shown bounds = run.arrival actor bounds := by
  cases settled with
  | free => rfl
  | moving busy stepped => simp only [arrival, busy, finish_of_step stepped]
  | arrived busy stepped => simp only [arrival, busy, clamped_of_step_done stepped]
  | showing busy | cleared busy => simp only [arrival, busy]

/-- When a run is done, its actor is where it was said to arrive. -/
theorem Settled.shown_pose (settled : Settled run actor now bounds (later, shown, .done)) :
    shown.pose = run.arrival actor bounds := by
  rw [← settled.arrival_eq, arrival, settled.activity_eq_none]

theorem Settled.isOnCourse_iff (settled : Settled run actor now bounds (later, shown, progress)) :
    later.IsOnCourse shown bounds ↔ run.IsOnCourse actor bounds := by
  rw [IsOnCourse, IsOnCourse, settled.arrival_eq, settled.pose_eq]

theorem Settled.shown_pose_eq_iff (settled : Settled run actor now bounds (later, shown, .done)) :
    later.pose = shown.pose ↔ run.IsOnCourse actor bounds := by
  rw [settled.shown_pose, settled.pose_eq]
  exact eq_comm

/-! ## Tweens in progress -/

theorem IsAimed.settled (aimed : run.IsAimed)
    (settled : Settled run actor now bounds (later, shown, progress)) : later.IsAimed := by
  cases settled with
  | free => exact aimed
  | moving busy stepped =>
    rintro tween ⟨⟩
    exact (finish_of_step stepped).trans (aimed _ busy)
  | arrived | showing | cleared => exact fun _ moves => nomatch moves

theorem isAimed_begin (run : Run) (actor : Actor) (effect : Effect) (tempo : Tempo) :
    (run.begin actor effect tempo).1.IsAimed := by
  cases effect with
  | move | turn =>
    rintro tween ⟨⟩
    rfl
  | «show» => exact fun _ moves => nomatch moves

/-! ## Displacing the actor -/

theorem movedTo_eq_self_iff {pose : Pose} {position : Point} :
    pose.movedTo position = pose ↔ position = pose.position := by
  constructor
  · exact fun same => congrArg Pose.position same
  · rintro rfl
    rfl

theorem isOnCourse_iff_of_resting (resting : ∀ tween, run.activity ≠ some (.tween tween)) :
    run.IsOnCourse actor bounds ↔ actor.pose = run.pose := by
  unfold IsOnCourse arrival
  split
  case h_1 tween moves => exact absurd moves (resting tween)
  case h_2 => rfl

theorem IsOnCourse.dragged_iff (onCourse : run.IsOnCourse actor bounds) (position : Point) :
    run.IsOnCourse (actor.movedTo position) bounds ↔
      ((∀ tween, run.activity ≠ some (.tween tween)) → position = run.pose.position) := by
  by_cases resting : ∀ tween, run.activity ≠ some (.tween tween)
  · rw [isOnCourse_iff_of_resting resting] at onCourse ⊢
    rw [Actor.movedTo, onCourse, movedTo_eq_self_iff]
    exact ⟨fun same _ => same, fun same => same resting⟩
  -- A tween goes on as if nothing had happened.
  · obtain ⟨tween, moves⟩ := Classical.not_forall_not.mp resting
    have goesOn : run.IsOnCourse (actor.movedTo position) bounds := by
      simpa only [IsOnCourse, arrival, moves] using onCourse
    exact iff_of_true goesOn fun rests => absurd rests resting

theorem IsOnCourse.resized_iff (onCourse : run.IsOnCourse actor bounds) (aimed : run.IsAimed)
    (other : Bounds) :
    run.IsOnCourse (actor.movedTo (other.clamp actor.pose.position)) other ↔
      other.Keeps run.pose.position := by
  by_cases resting : ∀ tween, run.activity ≠ some (.tween tween)
  · rw [isOnCourse_iff_of_resting resting] at onCourse ⊢
    rw [Actor.movedTo, onCourse, movedTo_eq_self_iff, Bounds.Keeps]
  · obtain ⟨tween, moves⟩ := Classical.not_forall_not.mp resting
    simp only [IsOnCourse, arrival, moves, aimed tween moves, movedTo_eq_self_iff, Bounds.Keeps]

/-! ## Starting effects -/

variable [Trigonometry]

/-- The effects that a run starts at time `now`, in order. -/
def departures (now : Nat) (tempo : Tempo) : (budget : Nat) → Run → Actor → List Departure
  | 0, _, _ => []
  | budget + 1, run, actor =>
    match run.settle actor now tempo.bounds with
    | (_, _, .pending) => []
    | (run, actor, .done) =>
      match run.cursor.next with
      | (none, _) => []
      | (some action, cursor) =>
        let (next, shown) :=
          begin { run with cursor } actor (action.effect run.pose tempo.bounds) tempo
        ⟨action, run.pose, actor.pose⟩ :: departures now tempo budget next shown

theorem map_action_departures (now : Nat) (tempo : Tempo) (budget : Nat) (run : Run)
    (actor : Actor) :
    (run.departures now tempo budget actor).map (·.action) =
      run.begun now tempo budget actor := by
  -- Both look at what settling comes to, and then at what the cursor returns.
  induction budget generalizing run actor with
  | zero => rfl
  | succ budget ih =>
    unfold departures begun
    rcases run.settle actor now tempo.bounds with ⟨later, shown, _ | _⟩
    · rfl
    · rcases asked : later.cursor.next with ⟨_ | action, cursor⟩
      · simp only [asked, List.map_nil]
      · simp only [asked, List.map_cons, ih]

theorem departures_cases (now : Nat) (tempo : Tempo) (budget : Nat) (run : Run)
    (actor : Actor) :
    run.departures now tempo (budget + 1) actor = [] ∨
      ∃ later shown action cursor,
        Settled run actor now tempo.bounds (later, shown, .done) ∧
        later.cursor.next = (some action, cursor) ∧
        let started :=
          begin { later with cursor } shown (action.effect later.pose tempo.bounds) tempo
        run.departures now tempo (budget + 1) actor =
          ⟨action, later.pose, shown.pose⟩ ::
            started.1.departures now tempo budget started.2 := by
  have carriedOn := settled run actor now tempo.bounds
  rw [departures]
  rcases done : run.settle actor now tempo.bounds with ⟨later, shown, _ | _⟩
  · exact .inl rfl
  · rw [done] at carriedOn
    rcases asked : later.cursor.next with ⟨_ | action, cursor⟩
    · exact .inl (by simp only [asked])
    · exact .inr ⟨later, shown, action, cursor, carriedOn, asked, by simp only [asked]⟩

/-- An effect that starts from where the actor is leads to a pose inside the bounds, so the actor
    will be there when it is over. -/
theorem IsOnCourse.begun (onCourse : run.IsOnCourse actor tempo.bounds)
    (free : run.activity = none) (inside : tempo.bounds.Keeps actor.pose.position) :
    let started := begin { run with cursor } actor (action.effect run.pose tempo.bounds) tempo
    started.1.IsOnCourse started.2 tempo.bounds := by
  have starts : actor.pose = run.pose := by
    simpa only [IsOnCourse, arrival, free] using onCourse
  rw [starts] at inside
  have kept := action.keeps_lead inside
  cases action with
  | walk | walkTo | rotate => exact Pose.movedTo_clamp kept
  | «show» => exact starts

theorem IsOnCourse.played (onCourse : run.IsOnCourse actor tempo.bounds)
    (played : Played now tempo budget run actor actions later shown)
    (inside : tempo.bounds.Keeps actor.pose.position) :
    later.IsOnCourse shown tempo.bounds := by
  induction played with
  | spent settled | waiting settled | ended settled => exact settled.isOnCourse_iff.mpr onCourse
  | began settled _ _ ih =>
    have stays := settled.keeps inside
    refine ih ((settled.isOnCourse_iff.mpr onCourse).begun settled.activity_eq_none stays) ?_
    rw [begin_actor]
    exact stays

theorem IsOnCourse.departures (onCourse : run.IsOnCourse actor tempo.bounds)
    (inside : tempo.bounds.Keeps actor.pose.position) :
    ∀ departure ∈ run.departures now tempo budget actor, departure.planned = departure.actual := by
  induction budget generalizing run actor with
  | zero => exact fun _ member => nomatch member
  | succ budget ih =>
    rcases departures_cases now tempo budget run actor with
      none | ⟨later, shown, action, cursor, settled, _, starts⟩
    · rw [none]
      exact fun _ member => nomatch member
    · rw [starts, List.forall_mem_cons]
      have stays := settled.keeps inside
      refine ⟨settled.shown_pose_eq_iff.mpr onCourse, ih ?_ ?_⟩
      · exact (settled.isOnCourse_iff.mpr onCourse).begun settled.activity_eq_none stays
      · rw [begin_actor]
        exact stays

/-- The first effect gives a run away that is not on course. -/
theorem departures_actual_iff (inside : tempo.bounds.Keeps actor.pose.position) :
    (∀ departure ∈ run.departures now tempo budget actor,
        departure.planned = departure.actual) ↔
      run.departures now tempo budget actor = [] ∨ run.IsOnCourse actor tempo.bounds := by
  constructor
  · intro actual
    cases budget with
    | zero => exact .inl rfl
    | succ budget =>
      rcases departures_cases now tempo budget run actor with
        none | ⟨later, shown, action, cursor, settled, _, starts⟩
      · exact .inl none
      · rw [starts, List.forall_mem_cons] at actual
        exact .inr (settled.shown_pose_eq_iff.mp actual.1)
  · rintro (none | onCourse)
    · rw [none]
      exact fun _ member => nomatch member
    · exact onCourse.departures inside

theorem IsAimed.played (aimed : run.IsAimed)
    (played : Played now tempo budget run actor actions later shown) : later.IsAimed := by
  induction played with
  | spent settled | waiting settled => exact aimed.settled settled
  | ended settled => exact fun tween moves => aimed.settled settled tween moves
  | began _ _ _ ih => exact ih (isAimed_begin _ _ _ _)

end Run

/-! ## One part -/

theorem Part.isAimed_run (part : Part) (duration : Nat) : (part.run duration).IsAimed := by
  obtain ⟨actor, script, handOff⟩ := part
  cases handOff with
  | none => exact fun _ moves => nomatch moves
  | some target =>
    rintro tween ⟨⟩
    rfl

/-- A run without a walk to begin with starts where its actor is. -/
theorem Part.isOnCourse_run (part : Part) {actor : Actor} {bounds : Bounds} (duration : Nat)
    (stands : actor.pose = part.actor.pose)
    (walks : ∀ target, part.handOff = some target → bounds.Keeps target.position) :
    (part.run duration).IsOnCourse actor bounds := by
  obtain ⟨owner, script, handOff⟩ := part
  cases handOff with
  | none => exact stands
  | some target => exact Pose.movedTo_clamp (walks target rfl)

/-! ## Everyone -/

/-- A property of runs with their actors that does not look at scripts or places in them. -/
theorem undisturbed_of_ignores {holds : Actor → Run → Prop}
    (ignores : ∀ {actor : Actor} {run : Run} (script : List Block) (cursor : Cursor),
      holds actor run → holds { actor with script } { run with cursor }) :
    Undisturbed fun actor run => ∀ playing ∈ run, holds actor playing where
  script script held := fun playing member => ignores script playing.cursor (held playing member)
  cursor {actor _} cursor held := by
    rintro playing ⟨⟩
    exact ignores actor.script cursor (held _ rfl)
  finished _ _ := fun _ member => nomatch member

section

variable [LawfulIdSource] {stage changed : Stage} {settings : Settings} {call : Call}
  {actor : Actor} {run : Run}

/-- A walk to the start of another script stays inside the bounds. -/
theorem Coherent.keeps_handOff [Trigonometry] (coherent : stage.Coherent) {part : Part}
    {target : Pose} (member : part ∈ stage.currentLineup.parts)
    (walks : part.handOff = some target) :
    stage.bounds.Keeps target.position := by
  obtain ⟨i, origin, inCast, isPart⟩ := exists_origin stage.settings stage.cast member
  rw [isPart] at walks
  obtain ⟨_, rfl⟩ := by simpa [partOf] using walks
  have listed := mem_actors_of_mem_roster (List.mem_filter.mp inCast).1
  exact keeps_projectedPose (coherent.inside origin listed) origin.script

theorem of_mem_runs {holds : Actor → Run → Prop}
    (each : stage.EachActor fun actor run => ∀ playing ∈ run, holds actor playing)
    (coherent : stage.Coherent) (member : run ∈ stage.runs)
    (shows : stage.actor? run.actor = some actor) : holds actor run := by
  have held := each.of_actor? shows
  rw [coherent.run?_of_mem member] at held
  exact held run rfl

/-- Whether every tween in progress leads to the pose that its run has on record, before it is
    moved into the bounds. -/
def Aimed : Stage → Prop :=
  EachActor fun _ run => ∀ playing ∈ run, playing.IsAimed

/-- Whether every run has the pose on record in which its actor will be when it is done with what
    it is busy with. -/
def OnCourse (stage : Stage) : Prop :=
  stage.EachActor fun actor run => ∀ playing ∈ run, playing.IsOnCourse actor stage.bounds

/-- Whether a call takes the actor of a run away from where the run has it on record: a drag of
    an actor that is not on its way anywhere, and a resize that leaves no room for the recorded
    position. -/
def Run.IsDisplacedBy (run : Run) (stage : Stage) : Call → Prop
  | .drag id position =>
    run.actor = id ∧ (∀ tween, run.activity ≠ some (.tween tween)) ∧
      stage.bounds.clamp position ≠ run.pose.position
  | .resize width height => ¬ (stage.resize width height).bounds.Keeps run.pose.position
  | _ => False

namespace Aimed

variable [Trigonometry]

theorem ticked (aimed : stage.Aimed) (coherent : stage.Coherent) (now : Nat) :
    (stage.tick now).Aimed := by
  cases running : stage.running with
  | false => rwa [tick_of_idle running]
  | true =>
    have undisturbed := undisturbed_of_ignores fun {_ run} _ _ (aimed : run.IsAimed) => aimed
    refine EachActor.ticked aimed coherent running undisturbed (fun _ _ resting => resting) ?_
    rintro actor run later shown _ _ aimed played playing ⟨⟩
    exact (aimed run rfl).played played

theorem outcome (aimed : stage.Aimed) (coherent : stage.Coherent)
    (outcome : Outcome stage call changed) : changed.Aimed := by
  cases outcome with
  | refused | selected | chosen => exact aimed
  | added => exact EachActor.added aimed coherent fun _ playing => nomatch playing
  | removed => exact EachActor.removed aimed rfl rfl
  | dragged | edited => exact EachActor.modified aimed (fun _ => rfl) fun _ _ aimed => aimed
  | resized | sentHome => exact EachActor.mapped aimed rfl rfl (fun _ => rfl) fun _ _ aimed => aimed
  | started idle =>
    refine Aimed.ticked ?_ coherent.launched _
    refine EachActor.launched aimed coherent idle (fun _ resting => resting) ?_
    rintro part _ _ playing ⟨⟩
    exact part.isAimed_run _
  | ticked => exact aimed.ticked coherent _

theorem of_reachable (reachable : Reachable settings stage) : stage.Aimed := by
  induction reachable with
  | new => exact fun _ member => nomatch member
  | after call before ih => exact ih.outcome (coherent_of_reachable before) (outcome_after _ call)

end Aimed

namespace OnCourse

theorem of_mapped {change : Actor → Actor} (onCourse : stage.OnCourse)
    (actors : changed.actors = stage.actors.map change) (sameRuns : changed.runs = stage.runs)
    (keepsId : ∀ actor, (change actor).id = actor.id)
    (changes : ∀ actor ∈ stage.actors, ∀ run, stage.run? actor.id = some run →
      run.IsOnCourse actor stage.bounds → run.IsOnCourse (change actor) changed.bounds) :
    changed.OnCourse := by
  refine EachActor.mapped onCourse actors sameRuns keepsId fun actor member onCourse run plays => ?_
  exact changes actor member run plays (onCourse run plays)

variable [Trigonometry]

theorem ticked (onCourse : stage.OnCourse) (coherent : stage.Coherent) (now : Nat) :
    (stage.tick now).OnCourse := by
  cases running : stage.running with
  | false => rwa [tick_of_idle running]
  | true =>
    have sameBounds : (stage.tick now).bounds = stage.bounds := by
      rw [bounds, tick_settings, bounds]
    unfold OnCourse
    rw [sameBounds]
    have undisturbed := undisturbed_of_ignores
      fun {actor run} _ _ (onCourse : run.IsOnCourse actor stage.bounds) => onCourse
    refine EachActor.ticked onCourse coherent running undisturbed (fun _ _ resting => resting) ?_
    rintro actor run later shown shows _ onCourse played playing ⟨⟩
    have before : run.IsOnCourse actor stage.tempo.bounds := onCourse run rfl
    exact before.played played (coherent.inside actor (List.mem_of_find?_eq_some shows))

theorem launched (coherent : stage.Coherent) (idle : stage.running = false) :
    (stage.launch stage.currentLineup).OnCourse := by
  have nobody : stage.EachActor fun _ run => run = none :=
    fun actor _ => by simp [run?, coherent.idle idle]
  have starts : (stage.launch stage.currentLineup).EachActor fun actor run =>
      ∀ playing ∈ run, playing.IsOnCourse actor stage.bounds := by
    refine nobody.launched coherent idle ?_ ?_
    · rintro actor - playing ⟨⟩
    · rintro part member - playing ⟨⟩
      exact part.isOnCourse_run _ rfl fun target walks => coherent.keeps_handOff member walks
  exact starts

theorem outcome (onCourse : stage.OnCourse) (coherent : stage.Coherent) (aimed : stage.Aimed)
    (outcome : Outcome stage call changed)
    (undisplaced : ∀ run ∈ stage.runs, ¬ run.IsDisplacedBy stage call) : changed.OnCourse := by
  cases outcome with
  | refused | selected | chosen => exact onCourse
  | added => exact EachActor.added onCourse coherent fun _ playing => nomatch playing
  | removed => exact EachActor.removed onCourse rfl rfl
  | @dragged id position =>
    refine onCourse.of_mapped rfl rfl (fun actor => ?_) fun actor member run plays onCourse => ?_
    · split <;> rfl
    · split
      case isTrue own =>
        have stays := undisplaced run (List.mem_of_find?_eq_some plays)
        have owns := (actor_of_run? plays).trans own
        exact (onCourse.dragged_iff _).mpr fun resting =>
          Classical.byContradiction fun differs => stays ⟨owns, resting, differs⟩
      case isFalse => exact onCourse
  | @resized width height =>
    refine onCourse.of_mapped rfl rfl (fun _ => rfl) fun actor member run plays onCourse => ?_
    have stays := undisplaced run (List.mem_of_find?_eq_some plays)
    exact (onCourse.resized_iff (aimed actor member run plays) _).mpr (Classical.not_not.mp stays)
  | sentHome idle =>
    refine onCourse.of_mapped rfl rfl (fun _ => rfl) fun actor _ run plays _ => ?_
    simp [run?, coherent.idle idle] at plays
  | edited =>
    refine onCourse.of_mapped rfl rfl (fun actor => ?_) fun actor member run plays onCourse => ?_
    · split <;> rfl
    · split <;> exact onCourse
  | started idle => exact (launched coherent idle).ticked coherent.launched _
  | ticked => exact onCourse.ticked coherent _

/-- The calls that put somebody off course are those that displace an actor. -/
theorem after_iff (onCourse : stage.OnCourse) (coherent : stage.Coherent) (aimed : stage.Aimed)
    (call : Call) :
    (stage.after call).OnCourse ↔ ¬ ∃ run ∈ stage.runs, run.IsDisplacedBy stage call := by
  refine ⟨?_, fun none => onCourse.outcome coherent aimed (outcome_after stage call)
    fun run member displaced => none ⟨run, member, displaced⟩⟩
  rintro later ⟨run, member, displaced⟩
  obtain ⟨actor, shows, own⟩ := coherent.live member
  have present := List.mem_of_find?_eq_some shows
  have plays := coherent.run?_of_mem member
  have before : run.IsOnCourse actor stage.bounds :=
    of_mem_runs onCourse coherent member shows
  rw [← own] at plays
  cases call with
  | drag id position =>
    obtain ⟨owns, resting, differs⟩ := displaced
    have drags : stage.after (.drag id position) =
        stage.modify id (·.movedTo (stage.bounds.clamp position)) := by
      rw [owns] at shows
      simp only [Stage.after, Stage.call, withoutAnswer, drag, shows]
    rw [drags] at later
    have isThere : actor.movedTo (stage.bounds.clamp position) ∈
        (stage.modify id (·.movedTo (stage.bounds.clamp position))).actors :=
      List.mem_map.mpr ⟨actor, present, if_pos (own.trans owns)⟩
    exact differs ((before.dragged_iff _).mp (later _ isThere run plays) resting)
  | resize width height =>
    have isThere :
        actor.movedTo ((stage.resize width height).bounds.clamp actor.pose.position) ∈
          (stage.resize width height).actors := List.mem_map.mpr ⟨actor, present, rfl⟩
    have aims : run.IsAimed := of_mem_runs aimed coherent member shows
    exact displaced ((before.resized_iff aims _).mp (later _ isThere run plays))
  | add | remove | select | reset | append | insert | appendInside | erase | moveBlock
  | mergeParams | choose | start | tick => exact displaced

end OnCourse

variable [Trigonometry]

/-- The effects that a frame starts. -/
def departures (stage : Stage) (now : Nat) : List Departure :=
  stage.runs.flatMap fun run =>
    match stage.actor? run.actor with
    | some actor => run.departures now stage.tempo stage.tempo.budget actor
    | none => []

theorem OnCourse.departures (onCourse : stage.OnCourse) (coherent : stage.Coherent) (now : Nat) :
    ∀ departure ∈ stage.departures now, departure.planned = departure.actual := by
  intro departure starts
  obtain ⟨run, member, starts⟩ := List.mem_flatMap.mp starts
  obtain ⟨actor, shows, _⟩ := coherent.live member
  simp only [shows] at starts
  have course : run.IsOnCourse actor stage.tempo.bounds :=
    of_mem_runs onCourse coherent member shows
  exact course.departures (coherent.inside actor (List.mem_of_find?_eq_some shows)) departure starts

/-! ## Whole histories -/

/-- Nobody is ever off course exactly if no call displaces an actor, and nobody is at the start of
    a performance. Whoever is on course starts all effects of a frame from where the actor is, and
    is where its run has it on record when it is done with what it is busy with. Whoever is off
    course is not there then, and starts no effect without starting one from elsewhere. -/
theorem departs_from_actual_pose_iff (settings : Settings) (calls : List Call) :
    let after (made : Nat) := (Stage.new settings).afterAll (calls.take made)
    ((∀ made, (after made).OnCourse) ↔
      ∀ made call, calls[made]? = some call →
        ¬ ∃ run ∈ (after made).runs, run.IsDisplacedBy (after made) call) ∧
      (∀ made now, (after made).OnCourse →
        ∀ departure ∈ (after made).departures now, departure.planned = departure.actual) ∧
      (∀ made now, (after made).running = false →
        ∀ departure ∈ ((after made).launch (after made).currentLineup).departures now,
          departure.planned = departure.actual) ∧
      ∀ made, ∀ run ∈ (after made).runs, ∃ actor, (after made).actor? run.actor = some actor ∧
        ∀ now,
          let tempo := (after made).tempo
          let departures := run.departures now tempo tempo.budget actor
          departures.map (·.action) = run.begun now tempo tempo.budget actor ∧
          ((∀ departure ∈ departures, departure.planned = departure.actual) ↔
            departures = [] ∨ run.IsOnCourse actor (after made).bounds) ∧
          ∀ later shown, run.settle actor now (after made).bounds = (later, shown, .done) →
            (later.pose = shown.pose ↔ run.IsOnCourse actor (after made).bounds) := by
  intro after
  have reachable (made : Nat) : Reachable settings (after made) := Reachable.new.afterAll _
  have coherent (made : Nat) : (after made).Coherent := coherent_of_reachable (reachable made)
  refine ⟨?history, ?onCourse, ?first, fun made run member => ?single⟩
  case history =>
    have fresh : (Stage.new settings).OnCourse := fun _ member => nomatch member
    have step (stage : Stage) (reachable : Reachable settings stage) (onCourse : stage.OnCourse)
        (call : Call) :
        (stage.after call).OnCourse ↔ ¬ ∃ run ∈ stage.runs, run.IsDisplacedBy stage call :=
      onCourse.after_iff (coherent_of_reachable reachable) (.of_reachable reachable) call
    exact holds_throughout_iff fresh step calls
  case onCourse => exact fun made now onCourse => onCourse.departures (coherent made) now
  case first =>
    intro made now idle
    exact (OnCourse.launched (coherent made) idle).departures (coherent made).launched now
  case single =>
    obtain ⟨actor, shows, _⟩ := (coherent made).live member
    have inside := (coherent made).inside actor (List.mem_of_find?_eq_some shows)
    refine ⟨actor, shows, fun now => ⟨?_, ?_, fun later shown done => ?_⟩⟩
    · exact run.map_action_departures now _ _ actor
    · exact Run.departures_actual_iff inside
    · have settled := run.settled actor now (after made).bounds
      rw [done] at settled
      exact settled.shown_pose_eq_iff

end

/-- An actor on its way to a place that the stage no longer has, from where it is to come back a
    little. -/
def cutWalk : Stage :=
  Stage.afterAll (.new .standard)
    [.choose .off, .add "cat", .append ⟨0, 1⟩ (Block.goTo 800 0 ⟨0⟩).1,
      .append ⟨0, 1⟩ (Block.move (-100) ⟨1⟩).1, .start 0, .resize 500 300]

theorem reachable_cutWalk : Reachable .standard cutWalk :=
  Reachable.new.afterAll _

/-- It stops at the edge, but starts back from beyond, and ends up at the edge again. -/
theorem cutWalk_departs_elsewhere :
    let departures := cutWalk.departures 500000000
    Reachable .standard cutWalk ∧ cutWalk.running = true ∧
      departures.map (fun departure =>
        (departure.planned.position.x, departure.actual.position.x)) = [(800, 400)] ∧
      (∃ departure ∈ departures, departure.planned ≠ departure.actual) ∧
      [500000000, 1000000000].map (fun now =>
          ((cutWalk.tick 500000000).tick now).actors.map (·.pose.position.x)) =
        [[400], [400]] := by
  intro departures
  have away : departures.map (fun departure =>
      (departure.planned.position.x, departure.actual.position.x)) = [(800, 400)] := by
    decide +kernel
  refine ⟨reachable_cutWalk, by decide +kernel, away, ?_, by decide +kernel⟩
  obtain ⟨departure, member, places⟩ := List.mem_map.mp (away ▸ List.mem_singleton_self (800, 400))
  refine ⟨departure, member, fun same => ?_⟩
  rw [same, Prod.mk.injEq] at places
  have equal : (800 : Float32) = 400 := places.1.symm.trans places.2
  exact absurd equal (by decide)

end Troupe.Stage
