import Troupe.Proofs.Checked.Run
import Troupe.Proofs.Checked.Swap
import Troupe.Proofs.Stage.Coherence
import Troupe.Proofs.Stage.Stock

/-! # Performances without failures

A frame plays stocked cursors. Two runs that trade cursors are looked up by actor and written at
the places where they were found, which is the same as a change of the runs of both actors as long
as no actor has two. A lineup takes as many destinations as it has parts.

* `tick`, `start` — the calls that play.
* `tick_eq`, `start_eq` — they come out as if nothing could fail.
-/

namespace Troupe.Checked

open Troupe.Geometry
open Troupe.Number (Trigonometry)
open Troupe.Script
open Troupe.Swap (Plan)
open Troupe.Stage (Run Tempo Part Lineup Started crossingPlan)

/-! ## A frame -/

section Frame

variable [Trigonometry]

def playRun (now : Nat) (tempo : Tempo) (actors : List Actor) (run : Run) :
    Option (List Actor × Run) :=
  match actors.find? (·.id = run.actor) with
  | none => some (actors, run)
  | some actor => do
    let (run, actor) ← play now tempo tempo.budget run actor
    return (actors.map fun other => if other.id = actor.id then actor else other, run)

def playRuns (now : Nat) (tempo : Tempo) :
    List Actor → List Run → Option (List Actor × List Run)
  | actors, [] => some (actors, [])
  | actors, run :: rest => do
    let (actors, run) ← playRun now tempo actors run
    let (actors, rest) ← playRuns now tempo actors rest
    return (actors, run :: rest)

def advance [IdSource] (stage : Stage) (now : Nat) : Option Stage := do
  let (actors, runs) ← playRuns now stage.tempo stage.actors stage.runs
  return { stage with actors, runs }

theorem playRun_eq {run : Run} (stocked : run.cursor.IsStocked) (now : Nat) (tempo : Tempo)
    (actors : List Actor) :
    playRun now tempo actors run = some (Stage.playRun now tempo actors run) := by
  unfold playRun Stage.playRun
  cases actors.find? (·.id = run.actor) with
  | none => rfl
  | some actor => simp only [play_eq stocked]; rfl

theorem playRuns_eq {runs : List Run} (stocked : ∀ run ∈ runs, run.cursor.IsStocked) (now : Nat)
    (tempo : Tempo) (actors : List Actor) :
    playRuns now tempo actors runs = some (Stage.playRuns now tempo actors runs) := by
  induction runs generalizing actors with
  | nil => rfl
  | cons run rest ih =>
    obtain ⟨first, others⟩ := List.forall_mem_cons.mp stocked
    simp only [playRuns, playRun_eq first, ih others, Option.bind_eq_bind, Option.bind_some]
    rfl

theorem advance_eq [LawfulIdSource] {stage : Stage} (stocked : stage.Stocked) (now : Nat) :
    advance stage now = some (stage.advance now) := by
  rw [advance, playRuns_eq stocked]
  rfl

end Frame

/-! ## Swaps -/

def exchangeCursors (runs : List Run) (a b : ActorId) : Option (List Run) :=
  match runs.findIdx? (·.actor = a), runs.findIdx? (·.actor = b) with
  | some i, some j => do
    let runA ← runs[i]?
    let runB ← runs[j]?
    let runs ← replaceAt runs i { runA with cursor := runB.cursor }
    replaceAt runs j { runB with cursor := runA.cursor }
  | _, _ => some runs

def exchange [IdSource] (stage : Stage) (pair : ActorId × ActorId) : Option Stage :=
  match stage.actor? pair.1, stage.actor? pair.2 with
  | some a, some b => do
    let actors := stage.actors.map fun actor =>
      if actor.id = a.id then { actor with script := b.script }
      else if actor.id = b.id then { actor with script := a.script }
      else actor
    let runs ← exchangeCursors stage.runs a.id b.id
    return { stage with actors, runs }
  | _, _ => some stage

def swapMet [IdSource] (stage : Stage) : Option Stage := do
  let (met, encounters) ← update stage.encounters stage.placed
  met.foldlM exchange { stage with encounters }

def meet [IdSource] (stage : Stage) : Option Stage :=
  if stage.animating && stage.settings.choreography.swapsClose then swapMet stage else some stage

section Exchange

variable {runs : List Run} (once : (runs.map (·.actor)).Nodup)
include once

theorem findIdx?_cases (id : ActorId) :
    (∃ i run, runs.findIdx? (·.actor = id) = some i ∧ runs[i]? = some run ∧ run.actor = id ∧
        runs.find? (·.actor = id) = some run) ∨
      runs.findIdx? (·.actor = id) = none ∧ runs.find? (·.actor = id) = none := by
  cases at_ : runs.findIdx? (·.actor = id) with
  | none =>
    refine .inr ⟨rfl, List.find?_eq_none.mpr fun run member => ?_⟩
    simpa using List.findIdx?_eq_none_iff.mp at_ run member
  | some i =>
    obtain ⟨inRange, owns, _⟩ := List.findIdx?_eq_some_iff_getElem.mp at_
    have owns : runs[i].actor = id := by simpa using owns
    exact .inl ⟨i, runs[i], rfl, List.getElem?_eq_getElem inRange, owns,
      (find?_eq_some_iff once).mpr ⟨List.getElem_mem inRange, owns⟩⟩

theorem index_eq {i k : Nat} {run other : Run} (at_ : runs[i]? = some run)
    (atOther : runs[k]? = some other) (same : other.actor = run.actor) : i = k := by
  have inRange : i < (runs.map (·.actor)).length := by
    simpa using (List.getElem?_eq_some_iff.mp at_).1
  exact (List.getElem?_inj inRange once).mp (by simp [at_, atOther, same])

theorem exchangeCursors_eq (a b : ActorId) :
    exchangeCursors runs a b = some (Stage.exchangeCursors runs a b) := by
  unfold exchangeCursors Stage.exchangeCursors
  rcases findIdx?_cases once a with ⟨i, runA, placeA, atI, ownsA, foundA⟩ | ⟨nowhere, absent⟩
  case inr => simp only [nowhere, absent]
  rcases findIdx?_cases once b with ⟨j, runB, placeB, atJ, ownsB, foundB⟩ | ⟨nowhere, absent⟩
  case inr => simp only [nowhere, absent, placeA, foundA]
  have inRangeI := (List.getElem?_eq_some_iff.mp atI).1
  have inRangeJ := (List.getElem?_eq_some_iff.mp atJ).1
  simp only [placeA, placeB, foundA, foundB, atI, atJ, replaceAt, List.length_set, if_pos inRangeI,
    if_pos inRangeJ, Option.bind_eq_bind, Option.bind_some, Option.some.injEq]
  -- Place by place: the second write, the first one, and everything that neither touches.
  refine List.ext_getElem? fun k => ?_
  rw [List.getElem?_map]
  by_cases isB : j = k
  · subst isB
    rw [List.getElem?_set_self (by simpa using inRangeJ), atJ, Option.map_some, ownsB]
    by_cases both : b = a
    · have same : runB = runA := Option.some.inj (foundB.symm.trans (both ▸ foundA))
      rw [if_pos both, same]
    · rw [if_neg both, if_pos rfl]
  · rw [List.getElem?_set_ne isB]
    by_cases isA : i = k
    · subst isA
      rw [List.getElem?_set_self inRangeI, atI, Option.map_some, if_pos ownsA]
    · rw [List.getElem?_set_ne isA]
      cases atK : runs[k]? with
      | none => rfl
      | some run =>
        have notA : run.actor ≠ a := fun same => isA (index_eq once atI atK (same.trans ownsA.symm))
        have notB : run.actor ≠ b := fun same => isB (index_eq once atJ atK (same.trans ownsB.symm))
        rw [Option.map_some, if_neg notA, if_neg notB]

end Exchange

theorem exchange_eq [LawfulIdSource] {stage : Stage} (once : (stage.runs.map (·.actor)).Nodup)
    (pair : ActorId × ActorId) : exchange stage pair = some (stage.exchange pair) := by
  unfold exchange Stage.exchange
  split <;> simp_all [exchangeCursors_eq once]

theorem meet_eq [LawfulIdSource] {stage : Stage} (once : (stage.runs.map (·.actor)).Nodup) :
    meet stage = some stage.meet := by
  have swaps : swapMet stage = some stage.swapMet := by
    rw [swapMet, update_eq, Option.bind_eq_bind, Option.bind_some]
    refine foldlM_eq_some_foldl (fun stage : Stage => (stage.runs.map (·.actor)).Nodup) once
      fun later once pair _ => ⟨exchange_eq once pair, ?_⟩
    rwa [Stage.map_runs_exchange (·.actor) fun _ _ => rfl]
  unfold meet Stage.meet
  split
  · exact swaps
  · rfl

def tick [IdSource] [Trigonometry] (stage : Stage) (now : Nat) : Option Stage :=
  if stage.running then do
    let advanced ← advance stage now
    let met ← meet advanced
    return met.conclude
  else some stage

theorem tick_eq [LawfulIdSource] [Trigonometry] {stage : Stage} (coherent : stage.Coherent)
    (stocked : stage.Stocked) (now : Nat) : tick stage now = some (stage.tick now) := by
  unfold tick Stage.tick
  split
  · rw [advance_eq stocked, Option.bind_eq_bind, Option.bind_some,
      meet_eq (coherent.advanced now).once]
    rfl
  · rfl

/-! ## Starts -/

/-- The parts of a cast; the destination of an actor in a swap is looked up by its number. -/
def parts (plan : Plan) (cast : List Actor) (scripts : List (List Block))
    (destinations : List Pose) : Option (List Part) :=
  (cast.zip scripts).zipIdx.mapM fun ((actor, script), i) => do
    if plan.involves i then
      let destination ← destinations[i]?
      return { actor, script, handOff := some ⟨destination.position, actor.pose.rotation⟩ }
    else return { actor, script, handOff := none }

theorem parts_eq (plan : Plan) {cast : List Actor} {scripts : List (List Block)}
    {destinations : List Pose} (sameScripts : scripts.length = cast.length)
    (sameDestinations : destinations.length = cast.length) :
    parts plan cast scripts destinations =
      some ((cast.zip (scripts.zip destinations)).zipIdx.map
        fun ((actor, script, destination), i) =>
          { actor, script
            handOff :=
              if plan.involves i then some ⟨destination.position, actor.pose.rotation⟩
              else none }) := by
  rw [parts, mapM_eq_some_map (g := fun ((actor, script), i) =>
    { actor, script
      handOff :=
        if plan.involves i then
          some ⟨(destinations.getD i .rest).position, actor.pose.rotation⟩
        else none }) ?answers]
  case answers =>
    rintro ⟨⟨actor, script⟩, i⟩ numbered
    have inRange : i < destinations.length := by
      have below := (List.mem_zipIdx numbered).2.1
      simp only [List.length_zip] at below
      omega
    by_cases involved : plan.involves i <;> simp [involved, inRange]
  refine congrArg some (List.ext_getElem (by simp [sameScripts, sameDestinations]) ?_)
  intro i inRange inRange'
  have inDestinations : i < destinations.length := by
    simp at inRange'
    omega
  simp [inDestinations]

variable [Trigonometry]

def lineup (settings : Stage.Settings) (cast : List Actor) : Option Lineup := do
  let destinations ← cast.mapM fun actor =>
    projectedPose actor.script actor.pose settings.bounds
  let plan := crossingPlan settings cast destinations
  let scripts ← apply plan (cast.map (·.script))
  let destinations ← apply plan destinations
  let parts ← parts plan cast scripts destinations
  return ⟨parts, plan.pairs.length⟩

theorem lineup_eq (settings : Stage.Settings) (cast : List Actor) :
    lineup settings cast = some (Stage.lineup settings cast) := by
  have looks : ∀ actor ∈ cast, projectedPose actor.script actor.pose settings.bounds =
      some (Script.projectedPose actor.script actor.pose settings.bounds) :=
    fun actor _ => projectedPose_eq actor.script actor.pose settings.bounds
  simp only [lineup, mapM_eq_some_map looks, apply_eq, Option.bind_eq_bind, Option.bind_some]
  rw [parts_eq _ (by simp) (by simp)]
  rfl

def start [IdSource] (stage : Stage) (now : Nat) : Option (Started × Stage) :=
  if stage.running then some (.alreadyRunning, stage)
  else
    let cast := stage.roster.filter Actor.isScripted
    if cast.isEmpty then some (.nothingToRun, stage)
    else do
      let lineup ← lineup stage.settings cast
      let stage ← tick (stage.launch lineup) now
      return (.started cast.length lineup.swaps, stage)

theorem start_eq [LawfulIdSource] {stage : Stage} (coherent : stage.Coherent) (now : Nat) :
    start stage now = some (stage.start now) := by
  unfold start Stage.start
  split
  · rfl
  · dsimp only
    split
    · rfl
    · have ticks : tick (stage.launch (Stage.lineup stage.settings stage.cast)) now = some _ :=
        tick_eq coherent.launched (Stage.stocked_launch _) now
      rw [lineup_eq, Option.bind_eq_bind, Option.bind_some]
      exact congrArg (Option.bind · _) ticks

end Troupe.Checked
