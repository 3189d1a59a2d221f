import Mathlib
import Troupe.Number.Angle
import Troupe.Proofs.Script.Cursor
import Troupe.Proofs.Stage.Trading

/-! # No work of a script is lost or done twice

A journal lists what a performance does to the scripts that are played: an actor starts the
effect of an action, and two actors trade cursors. The trail of a part follows its cursor
through the journal, from actor to actor, and collects the actions that its holders started.

What a trail has collected, followed by what the cursor has left, is the expansion of the
script at every moment. A frame moves actions from the second to the first, a trade changes
the holder, and no other call touches a run. Trails and runs stay in one-to-one correspondence.
-/

namespace Troupe.Stage

open Troupe.Geometry
open Troupe.Number (Trigonometry)
open Troupe.Script
open scoped Troupe.IdPool

/-! ## Journals -/

/-- What happens to the scripts being played. -/
inductive Event where
  | began (actor : ActorId) (action : Action)
  | traded (first second : ActorId)

def Event.isBegan : Event → Bool
  | .began .. => true
  | .traded .. => false

section

variable [Trigonometry] [LawfulIdSource]

/-- The actions whose effects a run starts in a frame. -/
def begunBy (stage : Stage) (now : Nat) (run : Run) : List Action :=
  match stage.actor? run.actor with
  | some actor => run.begun now stage.tempo stage.tempo.budget actor
  | none => []

def frameEvents (stage : Stage) (now : Nat) : List Event :=
  stage.runs.flatMap fun run => (stage.begunBy now run).map (.began run.actor)

def tradeEvents (stage : Stage) : List Event :=
  stage.met.map fun pair => .traded pair.1 pair.2

def tickEvents (stage : Stage) (now : Nat) : List Event :=
  if stage.running then stage.frameEvents now ++ (stage.advance now).tradeEvents else []

/-- What happens during a call that does not start a performance. -/
def callEvents (stage : Stage) : Call → List Event
  | .tick now => stage.tickEvents now
  | _ => []

def journal (stage : Stage) : List Call → List Event
  | [] => []
  | call :: rest => stage.callEvents call ++ (stage.after call).journal rest

end

/-- Whether a call neither removes an actor nor starts a performance. -/
def Call.keepsRuns : Call → Bool
  | .remove _ | .start _ => false
  | _ => true

/-! ## Trails -/

/-- Which actor holds a cursor, and the actions that were started under it. -/
structure Trail where
  holder : ActorId
  begun : List Action

namespace Trail

def post (trail : Trail) : Event → Trail
  | .began actor action =>
    if trail.holder = actor then { trail with begun := trail.begun ++ [action] } else trail
  | .traded first second => { trail with holder := Equiv.swap first second trail.holder }

def follow (trail : Trail) (events : List Event) : Trail :=
  events.foldl post trail

theorem follow_cons (trail : Trail) (event : Event) (rest : List Event) :
    trail.follow (event :: rest) = (trail.post event).follow rest := rfl

theorem follow_append (trail : Trail) (first second : List Event) :
    trail.follow (first ++ second) = (trail.follow first).follow second :=
  List.foldl_append

theorem follow_began_of_eq (trail : Trail) {actor : ActorId} (holds : trail.holder = actor)
    (actions : List Action) :
    trail.follow (actions.map (.began actor)) =
      { trail with begun := trail.begun ++ actions } := by
  induction actions generalizing trail with
  | nil => simp [follow]
  | cons action rest ih =>
    have first : trail.post (.began actor action) =
        { trail with begun := trail.begun ++ [action] } := if_pos holds
    rw [List.map_cons, follow_cons, first, ih { trail with begun := trail.begun ++ [action] } holds]
    simp

theorem follow_began_of_ne {trail : Trail} {actor : ActorId} (differs : trail.holder ≠ actor)
    (actions : List Action) : trail.follow (actions.map (.began actor)) = trail := by
  induction actions with
  | nil => rfl
  | cons action rest ih =>
    have first : trail.post (.began actor action) = trail := if_neg differs
    rw [List.map_cons, follow_cons, first, ih]

/-- A frame adds to a trail what the run of its holder starts. -/
theorem follow_frame {trail : Trail} {runs : List Run} {begun : Run → List Action} {run : Run}
    (once : (runs.map (·.actor)).Nodup) (member : run ∈ runs) (holds : trail.holder = run.actor) :
    trail.follow (runs.flatMap fun run => (begun run).map (.began run.actor)) =
      { trail with begun := trail.begun ++ begun run } := by
  -- A run of another actor leaves the trail alone.
  have untouched {trail : Trail} {runs : List Run} (absent : trail.holder ∉ runs.map (·.actor)) :
      trail.follow (runs.flatMap fun run => (begun run).map (.began run.actor)) = trail := by
    induction runs with
    | nil => rfl
    | cons first rest ih =>
      simp only [List.map_cons, List.mem_cons, not_or] at absent
      rw [List.flatMap_cons, follow_append, follow_began_of_ne absent.1, ih absent.2]
  induction runs with
  | nil => cases member
  | cons first rest ih =>
    simp only [List.map_cons, List.nodup_cons] at once
    rw [List.flatMap_cons, follow_append]
    rcases List.mem_cons.mp member with rfl | later
    · rw [follow_began_of_eq trail holds]
      exact untouched (holds ▸ once.1)
    · have differs : trail.holder ≠ first.actor := fun same =>
        once.1 (same ▸ holds ▸ List.mem_map_of_mem later)
      rw [follow_began_of_ne differs, ih once.2 later]

theorem follow_trades (trail : Trail) (pairs : List (ActorId × ActorId)) :
    trail.follow (pairs.map fun pair => .traded pair.1 pair.2) =
      { trail with holder := (trading pairs).symm trail.holder } := by
  induction pairs generalizing trail with
  | nil => rfl
  | cons pair rest ih =>
    rw [List.map_cons, follow_cons, ih]
    simp [post, trading, Equiv.Perm.mul_def]

def ofPart (part : Part) : Trail :=
  ⟨part.actor.id, []⟩

end Trail

/-! ## What holds of all trails -/

def Part.expansion (part : Part) : List Action :=
  (Playlist.ofScript part.script).expand

def Part.trail (part : Part) (events : List Event) : Trail :=
  (Trail.ofPart part).follow events

theorem Run.Played.upcoming [Trigonometry] {now budget : Nat} {tempo : Tempo} {run later : Run}
    {actor shown : Actor} {actions : List Action}
    (played : Played now tempo budget run actor actions later shown) :
    run.cursor.upcoming = actions ++ later.cursor.upcoming := by
  induction played with
  | spent settled | waiting settled => rw [settled.run_eq, List.nil_append]
  | ended settled asked =>
    rw [settled.run_eq] at asked
    obtain ⟨nothing, rfl⟩ := Cursor.upcoming_of_next_none asked
    exact nothing
  | began settled asked _ ih =>
    rw [begin_run] at ih
    rw [settled.run_eq] at asked
    rw [List.cons_append, ← ih]
    exact Cursor.upcoming_of_next_some asked

section

variable [LawfulIdSource]

/-- What trails and cursors have in common all the time: a trail and what is left of its cursor
    make up the expansion of the script, every run holds one trail, and no effect was started
    off the trails. -/
structure Accounted (stage : Stage) (parts : List Part) (events : List Event) : Prop where
  balanced : ∀ part ∈ parts,
    (part.trail events).begun ++ (stage.cursorOf (part.trail events).holder).upcoming =
      part.expansion
  held : stage.running = true →
    (parts.map fun part => (part.trail events).holder).Perm (stage.runs.map (·.actor))
  counted : events.countP Event.isBegan =
    (parts.map fun part => (part.trail events).begun.length).sum

variable {stage : Stage} {parts : List Part} {events : List Event}

namespace Accounted

theorem run_of_held (accounted : stage.Accounted parts events) (coherent : stage.Coherent)
    (running : stage.running = true) {part : Part} (member : part ∈ parts) :
    ∃ run ∈ stage.runs, run.actor = (part.trail events).holder ∧
      stage.run? (part.trail events).holder = some run := by
  have holds : (part.trail events).holder ∈ stage.runs.map (·.actor) :=
    (accounted.held running).subset (List.mem_map.mpr ⟨part, member, rfl⟩)
  obtain ⟨run, present, owns⟩ := List.mem_map.mp holds
  exact ⟨run, present, owns, (find?_eq_some_iff coherent.once).mpr ⟨present, owns⟩⟩

/-! ## Ticks and calls that start nothing -/

theorem meet (accounted : stage.Accounted parts events) (coherent : stage.Coherent)
    (running : stage.running = true) :
    stage.meet.Accounted parts (events ++ stage.tradeEvents) := by
  have follows (part : Part) : part.trail (events ++ stage.tradeEvents) =
      { part.trail events with
        holder := (trading stage.met).symm (part.trail events).holder } :=
    (Trail.follow_append _ _ _).trans (Trail.follow_trades _ _)
  have moved := map_trading_perm coherent
  refine ⟨?balanced, ?held, ?counted⟩
  case balanced =>
    intro part member
    obtain ⟨run, present, owns, _⟩ := accounted.run_of_held coherent running member
    obtain ⟨id, listed, reads⟩ :=
      List.mem_map.mp (moved.symm.subset (List.mem_map.mpr ⟨run, present, owns⟩))
    -- The trail follows the cursor back along the permutation that the runs read it at.
    have holds : (trading stage.met).symm (part.trail events).holder = id := by
      rw [← reads, Equiv.symm_apply_apply]
    rw [follows, holds, cursorOf_meet coherent listed, reads]
    exact accounted.balanced part member
  case held =>
    intro _
    have back : ((stage.runs.map (·.actor)).map (trading stage.met).symm).Perm
        (stage.runs.map (·.actor)) := by
      simpa [Function.comp_def] using moved.symm.map (trading stage.met).symm
    have handed := ((accounted.held running).map (trading stage.met).symm).trans back
    rw [map_runs_meet (·.actor) fun _ _ => rfl]
    simp only [follows]
    rw [List.map_map] at handed
    exact handed
  case counted =>
    have none : stage.tradeEvents.countP Event.isBegan = 0 := by
      simp [tradeEvents, List.countP_map, Function.comp_def, Event.isBegan]
    rw [List.countP_append, none, accounted.counted]
    simp only [follows, Nat.add_zero]

theorem conclude (accounted : stage.Accounted parts events) :
    stage.conclude.Accounted parts events := by
  rcases conclude_cases stage with ⟨finished, concludes⟩ | ⟨_, concludes⟩
  · rw [concludes]
    refine ⟨fun part member => ?_, (fun running => nomatch running), accounted.counted⟩
    have before := accounted.balanced part member
    have nothing : (stage.cursorOf (part.trail events).holder).upcoming = [] := by
      cases plays : stage.run? (part.trail events).holder with
      | none => rw [cursorOf_of_absent plays, Cursor.upcoming_done]
      | some run =>
        have done := List.all_eq_true.mp finished run (List.mem_of_find?_eq_some plays)
        simp only [Run.isFinished, Bool.and_eq_true] at done
        rw [cursorOf_of_run plays, Cursor.upcoming_of_isFinished done.2]
    -- No run is left to hold a cursor, and those that went had nothing left.
    rw [cursorOf_of_absent rfl, Cursor.upcoming_done, ← nothing]
    exact before
  · rw [concludes]
    exact accounted

theorem of_same_runs {changed : Stage} (accounted : stage.Accounted parts events)
    (sameRuns : changed.runs = stage.runs) (sameRunning : changed.running = stage.running) :
    changed.Accounted parts events := by
  have sameCursors (id : ActorId) : changed.cursorOf id = stage.cursorOf id := by
    simp only [cursorOf, run?, sameRuns]
  refine ⟨fun part member => ?_, ?_, accounted.counted⟩
  · rw [sameCursors]
    exact accounted.balanced part member
  · rw [sameRunning, sameRuns]
    exact accounted.held

/-! ## Frames -/

variable [Trigonometry]

theorem countP_frameEvents (stage : Stage) (now : Nat) :
    (stage.frameEvents now).countP Event.isBegan =
      (stage.runs.map fun run => (stage.begunBy now run).length).sum := by
  simp [frameEvents, List.countP_flatMap, List.countP_map, Function.comp_def, Event.isBegan]

theorem trail_frame (accounted : stage.Accounted parts events) (coherent : stage.Coherent)
    (running : stage.running = true) {part : Part} (member : part ∈ parts) (now : Nat) :
    ∃ run, stage.run? (part.trail events).holder = some run ∧
      part.trail (events ++ stage.frameEvents now) =
        { part.trail events with
          begun := (part.trail events).begun ++ stage.begunBy now run } := by
  obtain ⟨run, present, owns, plays⟩ := accounted.run_of_held coherent running member
  refine ⟨run, plays, (Trail.follow_append _ _ _).trans ?_⟩
  exact Trail.follow_frame coherent.once present owns.symm

theorem advance (accounted : stage.Accounted parts events) (coherent : stage.Coherent)
    (running : stage.running = true) (now : Nat) :
    (stage.advance now).Accounted parts (events ++ stage.frameEvents now) := by
  have sameHolder {part : Part} (member : part ∈ parts) :
      (part.trail (events ++ stage.frameEvents now)).holder = (part.trail events).holder := by
    obtain ⟨_, _, follows⟩ := accounted.trail_frame coherent running member now
    rw [follows]
  refine ⟨?balanced, ?held, ?counted⟩
  case balanced =>
    intro part member
    obtain ⟨run, plays, follows⟩ := accounted.trail_frame coherent running member now
    obtain ⟨actor, shows, _⟩ := coherent.live (List.mem_of_find?_eq_some plays)
    have owns := actor_of_run? plays
    have before := accounted.balanced part member
    rw [cursorOf_of_run plays] at before
    obtain ⟨later, shown, played, _, playsNow⟩ := coherent.advance_of_run now (owns ▸ shows) plays
    rw [follows, cursorOf_of_run playsNow, List.append_assoc]
    have begun : stage.begunBy now run = run.begun now stage.tempo stage.tempo.budget actor := by
      simp only [begunBy, shows]
    -- The run starts what it had left up to some action, and keeps the rest.
    rw [begun, ← played.upcoming, before]
  case held =>
    intro _
    rw [coherent.map_actor_advance, List.map_congr_left fun part member => sameHolder member]
    exact accounted.held running
  case counted =>
    -- What a frame starts under the trails is what its runs start, each run holding one.
    let started (id : ActorId) : Nat :=
      ((stage.run? id).map fun run => (stage.begunBy now run).length).getD 0
    have underTrails : (parts.map fun part =>
          (part.trail (events ++ stage.frameEvents now)).begun.length) =
        parts.map fun part =>
          (part.trail events).begun.length + started (part.trail events).holder := by
      refine List.map_congr_left fun part member => ?_
      obtain ⟨run, plays, follows⟩ := accounted.trail_frame coherent running member now
      simp only [started, follows, plays, List.length_append, Option.map_some, Option.getD_some]
    have byRuns : ((stage.runs.map (·.actor)).map started) =
        stage.runs.map fun run => (stage.begunBy now run).length := by
      rw [List.map_map]
      refine List.map_congr_left fun run member => ?_
      have plays : stage.run? run.actor = some run :=
        coherent.run?_of_mem member
      simp only [Function.comp_apply, started, plays, Option.map_some, Option.getD_some]
    have sameSum := ((accounted.held running).map started).sum_nat
    rw [byRuns, List.map_map] at sameSum
    rw [List.countP_append, countP_frameEvents, accounted.counted, underTrails,
      List.sum_map_add, ← sameSum]
    rfl

theorem tick (accounted : stage.Accounted parts events) (coherent : stage.Coherent) (now : Nat) :
    (stage.tick now).Accounted parts (events ++ stage.tickEvents now) := by
  unfold tickEvents
  split
  case isTrue running =>
    have advanced := accounted.advance coherent running now
    rw [tick_of_running running, ← List.append_assoc]
    exact (advanced.meet (coherent.advanced now) running).conclude
  case isFalse idle =>
    rw [tick_of_idle (by simpa using idle), List.append_nil]
    exact accounted

/-! ## Calls -/

theorem outcome {changed : Stage} {call : Call} (accounted : stage.Accounted parts events)
    (keeps : call.keepsRuns = true) (notTick : ∀ now, call ≠ .tick now)
    (outcome : Outcome stage call changed) : changed.Accounted parts events := by
  cases outcome with
  | removed | started => cases keeps
  | ticked => exact absurd rfl (notTick _)
  | refused | added | selected | dragged | resized | sentHome | edited | chosen =>
    exact accounted.of_same_runs rfl rfl

theorem after {call : Call} (accounted : stage.Accounted parts events)
    (coherent : stage.Coherent) (keeps : call.keepsRuns = true) :
    (stage.after call).Accounted parts (events ++ stage.callEvents call) := by
  -- A tick is the only call with events; the others do not touch the runs.
  by_cases isTick : ∃ now, call = .tick now
  · obtain ⟨now, rfl⟩ := isTick
    exact accounted.tick coherent now
  · have notTick (now : Nat) : call ≠ .tick now := fun same => isTick ⟨now, same⟩
    have silent : stage.callEvents call = [] := by
      unfold callEvents
      split
      case h_1 now => exact absurd rfl (notTick now)
      case h_2 => rfl
    rw [silent, List.append_nil]
    exact accounted.outcome keeps notTick (outcome_after stage call)

theorem afterAll {calls : List Call} (accounted : stage.Accounted parts events)
    (coherent : stage.Coherent) (keeps : ∀ call ∈ calls, call.keepsRuns = true) :
    (stage.afterAll calls).Accounted parts (events ++ stage.journal calls) := by
  induction calls generalizing stage events with
  | nil =>
    rw [journal, List.append_nil]
    exact accounted
  | cons call rest ih =>
    rw [journal, ← List.append_assoc]
    exact ih (accounted.after coherent (keeps call List.mem_cons_self))
      (coherent.outcome (outcome_after stage call))
      fun other member => keeps other (List.mem_cons_of_mem _ member)

end Accounted

/-! ## Whole performances -/

theorem accounted_launch [Trigonometry] (coherent : stage.Coherent) :
    (stage.launch stage.currentLineup).Accounted stage.currentLineup.parts [] := by
  refine ⟨fun part member => ?balanced, fun _ => ?held, ?counted⟩
  case balanced =>
    have plays := (launch_of_part coherent.distinct coherent.listed member).2
    have starts : (stage.launch stage.currentLineup).cursorOf (part.trail []).holder =
        .ofScript part.script := cursorOf_of_run plays
    rw [starts, Cursor.ofScript, upcoming_ofPlaylist]
    rfl
  case held =>
    rw [launch_eq coherent.distinct, List.map_map]
    exact .rfl
  case counted => simp [Part.trail, Trail.follow, Trail.ofPart]

/-- From the start of a performance on, whatever is called but a removal or another start: the
    actions begun under a trail, followed by what the run of its holder still yields, are the
    expansion of the script that the trail started with. While the performance goes on trails
    and runs correspond one to one. After it every expansion was begun to its end, and so many
    effects were started as the expansions have actions. -/
theorem performance_accounts_for_scripts [Trigonometry] {settings : Settings}
    {now actors swaps : Nat} {calls : List Call} (reachable : Reachable settings stage)
    (starts : (stage.start now).1 = .started actors swaps)
    (keeps : ∀ call ∈ calls, call.keepsRuns = true) :
    let parts := stage.currentLineup.parts
    let final := (stage.start now).2.afterAll calls
    let events := (stage.launch stage.currentLineup).tickEvents now ++
      (stage.start now).2.journal calls
    (final.running = true →
      (∀ part ∈ parts, ∃ run ∈ final.runs, run.actor = (part.trail events).holder ∧
        ∃ rest, run.cursor.Yields rest ∧ (part.trail events).begun ++ rest = part.expansion) ∧
      (parts.map fun part => (part.trail events).holder).Perm (final.runs.map (·.actor)) ∧
      (final.runs.map (·.actor)).Nodup) ∧
    (final.running = false →
      (∀ part ∈ parts, (part.trail events).begun = part.expansion) ∧
      events.countP Event.isBegan = (parts.map fun part => part.expansion.length).sum) := by
  intro parts final events
  have coherent := coherent_of_reachable reachable
  have started := start_of_started starts
  have opening := (accounted_launch coherent).tick coherent.launched now
  rw [List.nil_append, ← started] at opening
  have ticked : (stage.start now).2.Coherent := started ▸ coherent.launched.ticked now
  have accounted : final.Accounted parts events := opening.afterAll ticked keeps
  have finalCoherent : final.Coherent := ticked.afterAll calls
  constructor
  · intro running
    refine ⟨fun part member => ?_, accounted.held running, finalCoherent.once⟩
    obtain ⟨run, present, owns, plays⟩ := accounted.run_of_held finalCoherent running member
    refine ⟨run, present, owns, run.cursor.upcoming, run.cursor.yields_upcoming, ?_⟩
    rw [← cursorOf_of_run plays]
    exact accounted.balanced part member
  · intro idle
    have complete (part : Part) (member : part ∈ parts) :
        (part.trail events).begun = part.expansion := by
      have absent : final.run? (part.trail events).holder = none := by
        simp only [run?, finalCoherent.idle idle, List.find?_nil]
      have balanced := accounted.balanced part member
      rwa [cursorOf_of_absent absent, Cursor.upcoming_done, List.append_nil] at balanced
    refine ⟨complete, accounted.counted.trans ?_⟩
    rw [List.map_congr_left fun part member => congrArg List.length (complete part member)]

end

/-- The two trade on the way, and the other one makes the turn. -/
theorem facingPair_accounts_for_scripts :
    let calls : List Call :=
      [.tick 250000000, .drag ⟨0, 1⟩ ⟨10, 10⟩, .tick 500000000, .tick 800000000]
    let events := (facingPair.launch facingPair.currentLineup).tickEvents 0 ++
      (facingPair.start 0).2.journal calls
    (facingPair.start 0).1 = .started 2 0 ∧
      (∀ call ∈ calls, call.keepsRuns = true) ∧
      ((facingPair.start 0).2.afterAll calls).running = false ∧
      events.countP Event.isBegan =
        (facingPair.currentLineup.parts.map fun part => part.expansion.length).sum ∧
      (facingPair.currentLineup.parts.map fun part => part.expansion.length).sum = 3 := by
  intro calls events
  have starts : (facingPair.start 0).1 = .started 2 0 := by decide +kernel
  have keeps : ∀ call ∈ calls, call.keepsRuns = true := by simp [calls, Call.keepsRuns]
  have ends : ((facingPair.start 0).2.afterAll calls).running = false := by decide +kernel
  have accounts := performance_accounts_for_scripts reachable_facingPair starts keeps
  exact ⟨starts, keeps, ends, (accounts.2 ends).2, by decide +kernel⟩

end Troupe.Stage
