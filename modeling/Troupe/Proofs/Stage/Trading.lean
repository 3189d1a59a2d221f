import Mathlib.Algebra.Group.End
import Mathlib.Data.List.Nodup
import Troupe.Number.Angle
import Troupe.Proofs.Stage.Coherence
import Troupe.Proofs.Swap.Encounter

/-! # Swaps on the way are one permutation

The pairs of a frame are swapped one after the other, and an actor can be in several of them.
Every swap moves a script and the cursor in it together, so the whole batch reads each actor's
script and each run's cursor at one permutation of identities: the product of the
transpositions, in the order of the batch. Only actors with an unfinished run are moved by it.
-/

namespace Troupe.Stage

open Troupe.Number (Trigonometry)
open Troupe.Script (Block Cursor)
open Troupe.Swap.Encounters (Listed listed_of_mem_update)
open scoped Troupe.IdPool

/-! ## The permutation of a batch -/

/-- Whose script an actor has after a batch of swaps. -/
def trading : List (ActorId × ActorId) → Equiv.Perm ActorId
  | [] => 1
  | pair :: rest => Equiv.swap pair.1 pair.2 * trading rest

theorem mem_of_trading_ne {pairs : List (ActorId × ActorId)} {id : ActorId}
    (moved : trading pairs id ≠ id) : ∃ pair ∈ pairs, id = pair.1 ∨ id = pair.2 := by
  induction pairs with
  | nil => exact absurd rfl moved
  | cons pair rest ih =>
    by_cases later : trading rest id = id
    · rw [trading, Equiv.Perm.mul_apply, later] at moved
      refine ⟨pair, List.mem_cons_self, ?_⟩
      by_contra apart
      rw [not_or] at apart
      exact moved (Equiv.swap_apply_of_ne_of_ne apart.1 apart.2)
    · obtain ⟨other, member, isIn⟩ := ih later
      exact ⟨other, List.mem_cons_of_mem _ member, isIn⟩

/-- A permutation that moves listed identities only lists them in another order. -/
theorem map_perm_of_moved_mem {origin : Equiv.Perm ActorId} {ids : List ActorId}
    (distinct : ids.Nodup) (listed : ∀ id, origin id ≠ id → id ∈ ids) :
    (ids.map origin).Perm ids := by
  refine (List.perm_ext_iff_of_nodup (distinct.map origin.injective) distinct).mpr fun id => ?_
  constructor
  -- What is moved is moved to something that is moved as well, hence listed.
  · intro member
    obtain ⟨before, isListed, rfl⟩ := List.mem_map.mp member
    by_cases stays : origin before = before
    · rwa [stays]
    · exact listed _ fun same => stays (origin.injective same)
  · intro member
    by_cases stays : origin id = id
    · exact List.mem_map.mpr ⟨id, member, stays⟩
    · refine List.mem_map.mpr ⟨origin.symm id, listed _ ?_, origin.apply_symm_apply id⟩
      rw [origin.apply_symm_apply]
      intro same
      exact stays ((congrArg origin same).trans (origin.apply_symm_apply id))

/-! ## The stage after a batch -/

section

variable [LawfulIdSource]

/-- An actor with the script of the one that a permutation names for it. -/
def handScript (stage : Stage) (origin : Equiv.Perm ActorId) (actor : Actor) : Actor :=
  { actor with script := stage.scriptOf (origin actor.id) }

def handCursor (stage : Stage) (origin : Equiv.Perm ActorId) (run : Run) : Run :=
  { run with cursor := stage.cursorOf (origin run.actor) }

theorem handScript_id (stage : Stage) (origin : Equiv.Perm ActorId) (actor : Actor) :
    (stage.handScript origin actor).id = actor.id := rfl

theorem handCursor_actor (stage : Stage) (origin : Equiv.Perm ActorId) (run : Run) :
    (stage.handCursor origin run).actor = run.actor := rfl

def traded (stage : Stage) (origin : Equiv.Perm ActorId) : Stage :=
  { stage with
    actors := stage.actors.map (stage.handScript origin)
    runs := stage.runs.map (stage.handCursor origin) }

variable {stage : Stage} {origin : Equiv.Perm ActorId}

theorem traded_one (coherent : stage.Coherent) : stage.traded 1 = stage := by
  have actors : stage.actors.map (stage.handScript 1) = stage.actors := by
    refine (List.map_congr_left fun actor member => ?_).trans (List.map_id _)
    have shows : stage.actor? actor.id = some actor :=
      coherent.actor?_of_mem member
    simp only [handScript, scriptOf, Equiv.Perm.one_apply, shows, id]
  have runs : stage.runs.map (stage.handCursor 1) = stage.runs := by
    refine (List.map_congr_left fun run member => ?_).trans (List.map_id _)
    have plays : stage.run? run.actor = some run :=
      coherent.run?_of_mem member
    simp only [handCursor, cursorOf, Equiv.Perm.one_apply, plays, id]
  simp only [traded, actors, runs]

theorem actor?_traded (stage : Stage) (origin : Equiv.Perm ActorId) (id : ActorId) :
    (stage.traded origin).actor? id = (stage.actor? id).map (stage.handScript origin) :=
  find?_map_of_key (handScript_id stage origin) id

theorem run?_traded (stage : Stage) (origin : Equiv.Perm ActorId) (id : ActorId) :
    (stage.traded origin).run? id = (stage.run? id).map (stage.handCursor origin) :=
  find?_map_of_key (handCursor_actor stage origin) id

/-- One more swap is one more transposition, for the scripts and for the cursors. -/
theorem exchange_traded {a b : ActorId} {actorA actorB : Actor} {runA runB : Run}
    (showsA : stage.actor? a = some actorA) (showsB : stage.actor? b = some actorB)
    (playsA : stage.run? a = some runA) (playsB : stage.run? b = some runB) :
    (stage.traded origin).exchange (a, b) = stage.traded (origin * Equiv.swap a b) := by
  obtain rfl := id_of_actor? showsA
  obtain rfl := id_of_actor? showsB
  have ownerA := actor_of_run? playsA
  have ownerB := actor_of_run? playsB
  have handsA := (actor?_traded stage origin _).trans (congrArg _ showsA)
  have handsB := (actor?_traded stage origin _).trans (congrArg _ showsB)
  have cuesA := (run?_traded stage origin _).trans (congrArg _ playsA)
  have cuesB := (run?_traded stage origin _).trans (congrArg _ playsB)
  -- Which script an actor reads after the swap depends on whether it is `a`, `b` or neither,
  -- and so does where the transposition takes it.
  have scriptAt (actor : Actor) :
      (if actor.id = actorA.id then
          { stage.handScript origin actor with script := stage.scriptOf (origin actorB.id) }
        else if actor.id = actorB.id then
          { stage.handScript origin actor with script := stage.scriptOf (origin actorA.id) }
        else stage.handScript origin actor) =
      stage.handScript (origin * Equiv.swap actorA.id actorB.id) actor := by
    simp only [handScript, Equiv.Perm.mul_apply, Equiv.swap_apply_def]
    split
    · rfl
    · split <;> rfl
  have cursorAt (run : Run) :
      (if run.actor = actorA.id then
          { stage.handCursor origin run with cursor := stage.cursorOf (origin runB.actor) }
        else if run.actor = actorB.id then
          { stage.handCursor origin run with cursor := stage.cursorOf (origin runA.actor) }
        else stage.handCursor origin run) =
      stage.handCursor (origin * Equiv.swap actorA.id actorB.id) run := by
    simp only [ownerA, ownerB, handCursor, Equiv.Perm.mul_apply, Equiv.swap_apply_def]
    split
    · rfl
    · split <;> rfl
  have cursors : exchangeCursors (stage.traded origin).runs actorA.id actorB.id =
      stage.runs.map (stage.handCursor (origin * Equiv.swap actorA.id actorB.id)) := by
    unfold exchangeCursors
    rw [show (stage.traded origin).runs.find? _ = _ from cuesA,
      show (stage.traded origin).runs.find? _ = _ from cuesB]
    exact List.map_map.trans (List.map_congr_left fun run _ => cursorAt run)
  unfold exchange
  rw [handsA, handsB]
  refine congrArg₂ (fun actors runs => { stage with actors, runs }) ?_ cursors
  exact List.map_map.trans (List.map_congr_left fun actor _ => scriptAt actor)

/-- A batch of swaps, each between two actors with a run, is one permutation. The induction is
    on the batch, with the permutation of the swaps made so far. -/
theorem foldl_exchange_traded {pairs : List (ActorId × ActorId)} (coherent : stage.Coherent)
    (playing : ∀ pair ∈ pairs, (∃ run, stage.run? pair.1 = some run) ∧
      ∃ run, stage.run? pair.2 = some run) :
    pairs.foldl exchange (stage.traded origin) = stage.traded (origin * trading pairs) := by
  induction pairs generalizing origin with
  | nil => rfl
  | cons pair rest ih =>
    obtain ⟨a, b⟩ := pair
    obtain ⟨⟨runA, playsA⟩, runB, playsB⟩ := playing _ List.mem_cons_self
    obtain ⟨actorA, showsA⟩ := coherent.exists_player playsA
    obtain ⟨actorB, showsB⟩ := coherent.exists_player playsB
    rw [List.foldl_cons, exchange_traded showsA showsB playsA playsB,
      ih fun pair member => playing pair (List.mem_cons_of_mem _ member), trading, mul_assoc]

/-! ## The swaps of a frame -/

def IsPlaying (stage : Stage) (id : ActorId) : Prop :=
  ∃ run, stage.run? id = some run ∧ run.isFinished = false

theorem IsPlaying.mem_runs {id : ActorId} (playing : stage.IsPlaying id) :
    id ∈ stage.runs.map (·.actor) := by
  obtain ⟨run, plays, _⟩ := playing
  have owner := actor_of_run? plays
  exact owner ▸ List.mem_map_of_mem (List.mem_of_find?_eq_some plays)

/-- Listed are the actors whose runs are not finished, at their positions. -/
theorem mem_placed_iff {entry : Swap.Placed} :
    entry ∈ stage.placed ↔ ∃ run ∈ stage.runs, run.isFinished = false ∧
      ∃ actor, stage.actor? run.actor = some actor ∧ (actor.id, actor.pose.position) = entry := by
  rw [placed, List.mem_filterMap]
  refine exists_congr fun run => and_congr_right fun _ => ?_
  cases run.isFinished with
  | true => simp
  | false => simp [Option.map_eq_some_iff]

theorem isPlaying_of_mem_placed (coherent : stage.Coherent) {id : ActorId}
    (listed : id ∈ stage.placed.map (·.1)) : stage.IsPlaying id := by
  obtain ⟨entry, member, rfl⟩ := List.mem_map.mp listed
  obtain ⟨run, present, unfinished, actor, shows, rfl⟩ := mem_placed_iff.mp member
  rw [id_of_actor? shows]
  exact ⟨run, coherent.run?_of_mem present, unfinished⟩

theorem isPlaying_of_mem_met (coherent : stage.Coherent) {pair : ActorId × ActorId}
    (meets : pair ∈ stage.met) : stage.IsPlaying pair.1 ∧ stage.IsPlaying pair.2 := by
  unfold met at meets
  split at meets
  case isTrue =>
    obtain ⟨first, second⟩ := listed_of_mem_update meets
    exact ⟨isPlaying_of_mem_placed coherent first, isPlaying_of_mem_placed coherent second⟩
  case isFalse => cases meets

theorem isPlaying_of_trading_ne (coherent : stage.Coherent) {id : ActorId}
    (moved : trading stage.met id ≠ id) : stage.IsPlaying id := by
  obtain ⟨pair, meets, rfl | rfl⟩ := mem_of_trading_ne moved
  · exact (isPlaying_of_mem_met coherent meets).1
  · exact (isPlaying_of_mem_met coherent meets).2

/-- The swaps of a frame hand over scripts and cursors by one permutation, and nothing else
    changes but the list of encounters. -/
theorem meet_eq_traded (coherent : stage.Coherent) :
    stage.meet = { stage.traded (trading stage.met) with encounters := stage.ongoing } := by
  have counted : Coherent { stage with encounters := stage.ongoing } :=
    coherent.of_frame rfl ⟨rfl, rfl⟩ coherent.casting coherent.inside coherent.idle
  -- The batch starts from the identity.
  rw [meet_eq_foldl, ← traded_one counted, foldl_exchange_traded counted, one_mul]
  · rfl
  · intro pair meets
    obtain ⟨⟨runA, playsA, _⟩, runB, playsB, _⟩ := isPlaying_of_mem_met coherent meets
    exact ⟨⟨runA, playsA⟩, runB, playsB⟩

/-! ## Whole ticks -/

theorem scriptOf_advance [Trigonometry] (coherent : stage.Coherent) (now : Nat) (id : ActorId) :
    (stage.advance now).scriptOf id = stage.scriptOf id := by
  unfold scriptOf
  rw [coherent.actor?_advance]
  cases stage.actor? id with
  | none => rfl
  | some actor =>
    rw [Option.map_some, playedBy_eq]

theorem map_scriptOf_ids (coherent : stage.Coherent) :
    (stage.actors.map (·.id)).map stage.scriptOf = stage.actors.map (·.script) := by
  rw [List.map_map]
  refine List.map_congr_left fun actor member => ?_
  have shows : stage.actor? actor.id = some actor :=
    coherent.actor?_of_mem member
  simp only [Function.comp_apply, scriptOf, shows]

theorem map_trading_perm (coherent : stage.Coherent) :
    ((stage.runs.map (·.actor)).map (trading stage.met)).Perm (stage.runs.map (·.actor)) :=
  map_perm_of_moved_mem coherent.once fun _ moves =>
    (isPlaying_of_trading_ne coherent moves).mem_runs

theorem cursorOf_meet (coherent : stage.Coherent) {id : ActorId}
    (plays : id ∈ stage.runs.map (·.actor)) :
    stage.meet.cursorOf id = stage.cursorOf (trading stage.met id) := by
  obtain ⟨run, found, owns⟩ := exists_of_mem_keys plays
  have handed : stage.meet.run? id = some (stage.handCursor (trading stage.met) run) := by
    rw [meet_eq_traded coherent]
    exact (run?_traded stage _ id).trans (congrArg (Option.map _) found)
  rw [cursorOf_of_run handed, handCursor, owns]

/-- A tick hands over scripts and cursors by one permutation, which moves only actors whose
    runs are unfinished after the frame, and keeps all else that the frame left. So scripts are
    neither lost nor doubled. -/
theorem tick_trades_by_permutation [Trigonometry] {settings : Settings}
    (reachable : Reachable settings stage) (running : stage.running = true) (now : Nat) :
    let stepped := stage.advance now
    let origin := trading stepped.met
    (∀ id, origin id ≠ id → stepped.IsPlaying id) ∧
      (∀ actor ∈ stage.actors, ∃ source, stage.actor? (origin actor.id) = some source) ∧
      (∀ run ∈ stepped.runs, ∃ source, stepped.run? (origin run.actor) = some source) ∧
      stepped.meet = { stepped with
        actors := stepped.actors.map fun actor =>
          { actor with script := stage.scriptOf (origin actor.id) }
        runs := stepped.runs.map fun run =>
          { run with cursor := stepped.cursorOf (origin run.actor) }
        encounters := stepped.ongoing } ∧
      (stage.tick now).actors = stepped.meet.actors ∧
      ((stage.tick now).running = true → (stage.tick now).runs = stepped.meet.runs) ∧
      ((stage.tick now).actors.map (·.script)).Perm (stage.actors.map (·.script)) := by
  intro stepped origin
  have coherent := coherent_of_reachable reachable
  have advanced : stepped.Coherent := coherent.advanced now
  have ticks : stage.tick now = stepped.meet.conclude := tick_of_running running now
  have moved (id : ActorId) (moves : origin id ≠ id) : stepped.IsPlaying id :=
    isPlaying_of_trading_ne advanced moves
  have sameIds : stepped.actors.map (·.id) = stage.actors.map (·.id) :=
    coherent.map_id_advance now
  have runsMoved : ((stepped.runs.map (·.actor)).map origin).Perm (stepped.runs.map (·.actor)) :=
    map_trading_perm advanced
  have idsMoved : ((stage.actors.map (·.id)).map origin).Perm (stage.actors.map (·.id)) :=
    map_perm_of_moved_mem coherent.distinct fun id moves =>
      sameIds ▸ advanced.casting.subset (moved id moves).mem_runs
  have trades : stepped.meet = { stepped with
      actors := stepped.actors.map fun actor =>
        { actor with script := stage.scriptOf (origin actor.id) }
      runs := stepped.runs.map fun run =>
        { run with cursor := stepped.cursorOf (origin run.actor) }
      encounters := stepped.ongoing } := by
    rw [meet_eq_traded advanced]
    simp only [← scriptOf_advance coherent now]
    rfl
  refine ⟨moved, ?actors, ?runs, trades, ?stored, ?surviving, ?scripts⟩
  case actors =>
    intro actor member
    have named := idsMoved.subset (List.mem_map_of_mem (List.mem_map_of_mem member))
    obtain ⟨source, found, _⟩ := exists_of_mem_keys named
    exact ⟨source, found⟩
  case runs =>
    intro run member
    have named := runsMoved.subset (List.mem_map_of_mem (List.mem_map_of_mem member))
    obtain ⟨source, found, _⟩ := exists_of_mem_keys named
    exact ⟨source, found⟩
  case stored => rw [ticks, conclude_actors]
  case surviving =>
    intro goesOn
    rw [ticks] at goesOn ⊢
    rcases conclude_cases stepped.meet with ⟨_, concludes⟩ | ⟨_, concludes⟩
    · rw [concludes] at goesOn
      cases goesOn
    · rw [concludes]
  case scripts =>
    -- Everyone has the script of somebody, and `origin` names everybody once.
    have handed : (stage.tick now).actors.map (·.script) =
        ((stage.actors.map (·.id)).map origin).map stage.scriptOf := by
      rw [ticks, conclude_actors, trades, ← sameIds]
      simp only [List.map_map, Function.comp_def]
    rw [handed, ← map_scriptOf_ids coherent]
    exact idsMoved.map stage.scriptOf

end

/-- Two actors that are told to walk to each other's places, one of them to turn there. -/
def facingPair : Stage :=
  Stage.afterAll (.new .standard)
    [.choose .proximity, .add "cat", .add "dog",
      .append ⟨0, 1⟩ (Block.goTo 200 0 ⟨0⟩).1, .append ⟨0, 1⟩ (Block.turn 90 ⟨1⟩).1,
      .append ⟨1, 1⟩ (Block.goTo 0 0 ⟨2⟩).1]

theorem reachable_facingPair : Reachable .standard facingPair :=
  Reachable.new.afterAll _

def meetingPair : Stage :=
  facingPair.after (.start 0)

theorem meetingPair_trades :
    meetingPair.running = true ∧
      (meetingPair.advance 250000000).met = [(⟨0, 1⟩, ⟨1, 1⟩)] ∧
      (meetingPair.advance 250000000).IsPlaying ⟨0, 1⟩ ∧
      ((meetingPair.tick 250000000).actors.map (·.script)).Perm
        (meetingPair.actors.map (·.script)) := by
  have reachable : Reachable .standard meetingPair := reachable_facingPair.after _
  have running : meetingPair.running = true := by decide +kernel
  have meets : (meetingPair.advance 250000000).met = [(⟨0, 1⟩, ⟨1, 1⟩)] := by decide +kernel
  obtain ⟨playing, _, _, _, _, _, scripts⟩ :=
    tick_trades_by_permutation reachable running 250000000
  refine ⟨running, meets, playing _ ?_, scripts⟩
  rw [meets]
  decide

end Troupe.Stage
