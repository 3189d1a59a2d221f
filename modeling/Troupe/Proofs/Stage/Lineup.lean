import Troupe.Proofs.Stage.Lookup
import Troupe.Proofs.Stage.Outcome
import Troupe.Proofs.Swap.Plan

/-! # Who plays what

The parts of a lineup are the actors of its cast in their order. The plan moves scripts and
destinations alike, so the script of a part and the place it leads to come from one and the
same actor, the one at the index that the plan moves to the part's own.
-/

namespace Troupe.Stage

open Troupe.Geometry
open Troupe.Number (Trigonometry)
open Troupe.Script
open Troupe.Swap (Plan)

/-! ## Actors with another script -/

/-- An actor as a performance starts: with the script of its part, if it has one. -/
def launched (parts : List Part) (actor : Actor) : Actor :=
  match parts.find? (·.actor.id = actor.id) with
  | some part => { actor with script := part.script }
  | none => actor

theorem launched_eq (parts : List Part) (actor : Actor) :
    launched parts actor = { actor with script := (launched parts actor).script } := by
  unfold launched
  split <;> rfl

theorem launched_id (parts : List Part) (actor : Actor) :
    (launched parts actor).id = actor.id := by
  rw [launched_eq]

/-! ## The parts -/

variable [Trigonometry]

def destination (settings : Settings) (actor : Actor) : Pose :=
  projectedPose actor.script actor.pose settings.bounds

/-- The swaps made before the actors of a cast start. -/
def castPlan (settings : Settings) (cast : List Actor) : Plan :=
  crossingPlan settings cast (cast.map (destination settings))

/-- The part of an actor that plays the script of another, or its own. -/
def partOf (settings : Settings) (cast : List Actor) (i : Nat) (actor origin : Actor) : Part where
  actor
  script := origin.script
  handOff :=
    if (castPlan settings cast).involves i then
      some ⟨(destination settings origin).position, actor.pose.rotation⟩
    else none

variable (settings : Settings) (cast : List Actor)

theorem lineup_parts :
    (lineup settings cast).parts =
      (cast.zip ((castPlan settings cast).apply cast)).zipIdx.map
        fun ((actor, origin), i) => partOf settings cast i actor origin := by
  have moved {β : Type} (read : Actor → β) :
      (castPlan settings cast).apply (cast.map read) =
        ((castPlan settings cast).apply cast).map read := (Plan.map_apply _ _ _).symm
  have zipped : cast.zip (((castPlan settings cast).apply (cast.map (·.script))).zip
      ((castPlan settings cast).apply (cast.map (destination settings)))) =
      (cast.zip ((castPlan settings cast).apply cast)).map
        fun (actor, origin) => (actor, origin.script, destination settings origin) := by
    rw [moved, moved, List.zip_map', List.zip_map_right]
    rfl
  unfold lineup
  change ((cast.zip (((castPlan settings cast).apply (cast.map (·.script))).zip
      ((castPlan settings cast).apply (cast.map (destination settings))))).zipIdx.map _) = _
  rw [zipped, List.zipIdx_map, List.map_map]
  rfl

theorem part_of_actor {i : Nat} {actor : Actor} (placed : cast[i]? = some actor) :
    ∃ source origin, ((castPlan settings cast).apply (List.range cast.length))[i]? = some source ∧
      cast[source]? = some origin ∧
      (lineup settings cast).parts[i]? = some (partOf settings cast i actor origin) := by
  have inRange : i < cast.length := (List.getElem?_eq_some_iff.mp placed).1
  -- The item that ends at `i` is found at the index that the plan moves there.
  obtain ⟨origin, comes⟩ : ∃ origin, ((castPlan settings cast).apply cast)[i]? = some origin :=
    ⟨_, List.getElem?_eq_getElem (by simpa using inRange)⟩
  obtain ⟨source, ends, from_⟩ := Option.bind_eq_some_iff.mp
    ((Plan.getElem?_apply _ cast i).symm.trans comes)
  refine ⟨source, origin, ends, from_, ?_⟩
  have zipped : (cast.zip ((castPlan settings cast).apply cast))[i]? = some (actor, origin) :=
    List.getElem?_zip_eq_some.mpr ⟨placed, comes⟩
  simp [lineup_parts, List.getElem?_zipIdx, zipped]

theorem length_parts : (lineup settings cast).parts.length = cast.length := by
  simp [lineup_parts]

theorem map_actor_parts : (lineup settings cast).parts.map (·.actor) = cast := by
  apply List.ext_getElem?
  intro i
  rw [List.getElem?_map]
  cases placed : cast[i]? with
  | none => simpa [length_parts] using placed
  | some actor =>
    obtain ⟨_, _, _, _, part⟩ := part_of_actor settings cast placed
    rw [part]
    rfl

/-- The script of a part and the place it leads to come from some actor of the cast. -/
theorem exists_origin {part : Part} (member : part ∈ (lineup settings cast).parts) :
    ∃ i, ∃ origin ∈ cast, part = partOf settings cast i part.actor origin := by
  rw [lineup_parts] at member
  obtain ⟨⟨⟨actor, origin⟩, i⟩, listed, rfl⟩ := List.mem_map.mp member
  have zipped := List.mem_of_getElem? (List.mem_zipIdx_iff_getElem?.mp listed)
  exact ⟨i, origin, (Plan.apply_perm _ _).subset (List.of_mem_zip zipped).2, rfl⟩

theorem script_of_handOff_none {part : Part} (member : part ∈ (lineup settings cast).parts)
    (stays : part.handOff = none) : part.script = part.actor.script := by
  obtain ⟨i, found⟩ := List.getElem?_of_mem member
  have inRange : i < cast.length := by
    simpa [length_parts] using (List.getElem?_eq_some_iff.mp found).1
  obtain ⟨source, origin, ends, from_, isPart⟩ :=
    part_of_actor settings cast (List.getElem?_eq_getElem inRange)
  obtain rfl := Option.some.inj (found.symm.trans isPart)
  have apart : (castPlan settings cast).involves i = false := by
    simpa [partOf] using stays
  rw [Plan.getElem?_apply_of_not_involves apart, List.getElem?_range inRange] at ends
  obtain rfl := Option.some.inj ends
  simp_all [partOf]

/-! ## Starting -/

section Launch

variable [LawfulIdSource] {stage : Stage} (distinct : (stage.actors.map (·.id)).Nodup)

include distinct in
theorem actor_of_part {part : Part} (member : part ∈ stage.currentLineup.parts) :
    stage.actor? part.actor.id = some part.actor := by
  have inCast : part.actor ∈ stage.cast := by
    rw [← map_actor_parts stage.settings stage.cast]
    exact List.mem_map_of_mem member
  have present := mem_actors_of_mem_roster (List.mem_filter.mp inCast).1
  exact (find?_eq_some_iff distinct).mpr ⟨present, rfl⟩

include distinct in
theorem launch_eq :
    stage.launch stage.currentLineup =
      { stage with
        actors := stage.actors.map (launched stage.currentLineup.parts)
        runs := stage.currentLineup.parts.map (·.run stage.settings.moveDuration)
        encounters := stage.encounters.forget
        running := true
        animating := true } := by
  simp only [launch, Stage.mk.injEq, and_true]
  refine List.map_congr_left fun actor member => ?_
  cases found : stage.currentLineup.parts.find? (·.actor.id = actor.id) with
  | none => simp only [launched, found]
  | some part =>
    have present := List.mem_of_find?_eq_some found
    have sameId : part.actor.id = actor.id := by simpa using List.find?_some found
    have same : part.actor = actor := by
      have looked := (find?_eq_some_iff distinct).mpr ⟨member, sameId.symm⟩
      exact Option.some.inj ((actor_of_part distinct present).symm.trans looked)
    simp only [launched, found]
    split
    case isTrue => rfl
    case isFalse stays =>
      -- The model leaves this actor alone, and its part has the script it has already.
      have own := script_of_handOff_none stage.settings stage.cast present (by simpa using stays)
      rw [own, same]

include distinct in
theorem launch_of_part (listed : stage.order = stage.actors.map (·.id)) {part : Part}
    (member : part ∈ stage.currentLineup.parts) :
    (stage.launch stage.currentLineup).actor? part.actor.id =
        some { part.actor with script := part.script } ∧
      (stage.launch stage.currentLineup).run? part.actor.id =
        some (part.run stage.settings.moveDuration) := by
  have parts : (stage.currentLineup.parts.map (·.actor.id)).Nodup := by
    have cast := map_actor_parts stage.settings stage.cast
    have ids : stage.currentLineup.parts.map (·.actor.id) = stage.cast.map (·.id) := by
      rw [← cast, List.map_map]
      rfl
    rw [ids, Stage.cast, roster_eq distinct listed]
    exact distinct.sublist (List.filter_sublist.map Actor.id)
  have found := (find?_eq_some_iff parts).mpr ⟨member, rfl⟩
  rw [launch_eq distinct]
  constructor
  · refine (find?_map_of_key (launched_id stage.currentLineup.parts) _).trans ?_
    rw [show stage.actors.find? (·.id = part.actor.id) = some part.actor
      from actor_of_part distinct member, Option.map_some]
    simp only [launched, found]
  · exact List.find?_map.trans (congrArg (Option.map _) found)

include distinct in
theorem launch_of_unscripted {actor : Actor} (member : actor ∈ stage.actors)
    (silent : actor.isScripted = false) :
    (stage.launch stage.currentLineup).actor? actor.id = some actor ∧
      (stage.launch stage.currentLineup).run? actor.id = none := by
  -- The parts are those of scripted actors.
  have absent : ∀ part ∈ stage.currentLineup.parts, part.actor.id ≠ actor.id := by
    intro part present same
    have owner := actor_of_part distinct present
    rw [same, show stage.actor? actor.id = some actor
      from (find?_eq_some_iff distinct).mpr ⟨member, rfl⟩] at owner
    have inCast : part.actor ∈ stage.cast := by
      rw [← map_actor_parts stage.settings stage.cast]
      exact List.mem_map_of_mem present
    rw [← Option.some.inj owner] at inCast
    simp [cast, silent] at inCast
  rw [launch_eq distinct]
  constructor
  · refine (find?_map_of_key (launched_id stage.currentLineup.parts) _).trans ?_
    rw [show stage.actors.find? (·.id = actor.id) = some actor
      from (find?_eq_some_iff distinct).mpr ⟨member, rfl⟩, Option.map_some]
    have unlisted : stage.currentLineup.parts.find? (·.actor.id = actor.id) = none := by
      simpa using absent
    simp only [launched, unlisted]
  · refine List.find?_eq_none.mpr fun run present => ?_
    obtain ⟨part, listed, rfl⟩ := List.mem_map.mp present
    change ¬ decide (part.actor.id = actor.id) = true
    simpa using absent part listed

end Launch

end Troupe.Stage
