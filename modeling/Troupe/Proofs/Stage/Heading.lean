import Mathlib
import Troupe.Number.Angle
import Troupe.Proofs.Number.Remainder
import Troupe.Proofs.Playback.Heading
import Troupe.Proofs.Script.Sound
import Troupe.Proofs.Stage.EachActor

/-! # Headings

Turns add up without being wrapped, and are held inside the finite range. So a turn leads from one
finite heading to another, and every heading on the way is a weighted sum of the two. Whatever
becomes of positions, all headings are finite at any time, and what is shown of them is the nearest
number to the angle within one turn.

* `Run.IsHeaded`, `Run.IsHeaded.played` — what no frame spoils about a run.
* `Headed`, `Reachable.headed` — what no call spoils about an actor.
* `display_within_turn` — what is shown.
-/

namespace Troupe.Script

open Troupe.Geometry
open Troupe.Number

theorem Action.isFinite_rotation_lead [Trigonometry] {action : Action} {pose : Pose}
    {bounds : Bounds} (finite : action.IsFinite) (headed : pose.rotation.isFinite = true) :
    (action.lead bounds pose).rotation.isFinite = true := by
  cases action with
  | walk | walkTo | «show» => exact headed
  | rotate => exact isFinite_clamp_largest (isNaN_add headed (isNaN_of_isFinite finite))

end Troupe.Script

namespace Troupe.Stage

open Troupe.Geometry
open Troupe.Number
open Troupe.Script
open Troupe.Playback
open scoped Troupe.IdPool

/-! ## One run -/

namespace Run

/-- A run leads to a finite heading, and over finite headings. -/
structure IsHeaded (run : Run) : Prop where
  pose : run.pose.rotation.isFinite = true
  moves : ∀ tween, run.activity = some (.tween tween) → tween.IsHeaded

variable {run later : Run} {actor shown : Actor} {now budget : Nat} {bounds : Bounds}
  {tempo : Tempo} {progress : Progress} {actions : List Action} {action : Action} {cursor : Cursor}

theorem IsHeaded.settled (headed : run.IsHeaded)
    (settled : Settled run actor now bounds (later, shown, progress))
    (finite : actor.pose.rotation.isFinite = true) :
    later.IsHeaded ∧ shown.pose.rotation.isFinite = true := by
  obtain ⟨pose, moves⟩ := headed
  cases settled with
  | free => exact ⟨⟨pose, moves⟩, finite⟩
  | moving busy stepped =>
    obtain ⟨goesOn, rotation⟩ := (moves _ busy).step stepped
    refine ⟨⟨pose, fun tween same => ?_⟩, rotation⟩
    obtain rfl := by simpa using same
    exact goesOn
  | arrived busy stepped => exact ⟨⟨pose, nofun⟩, ((moves _ busy).step stepped).2⟩
  | showing => exact ⟨⟨pose, nofun⟩, finite⟩
  | cleared => exact ⟨⟨pose, nofun⟩, finite⟩

variable [Trigonometry]

theorem IsHeaded.begun (headed : run.IsHeaded)
    (asked : run.cursor.next = (some action, cursor)) :
    (begin { run with cursor } actor (action.effect run.pose tempo.bounds) tempo).1.IsHeaded := by
  have leads : (action.lead tempo.bounds run.pose).rotation.isFinite = true :=
    Action.isFinite_rotation_lead (Cursor.isFinite_of_next asked) headed.pose
  cases action with
  -- walks are tweens too, between two poses of one heading
  | walk | walkTo | rotate =>
    refine ⟨leads, fun tween same => ?_⟩
    obtain rfl := by simpa [begin, Action.effect] using same
    exact ⟨headed.pose, leads⟩
  | «show» => exact ⟨headed.pose, nofun⟩

theorem IsHeaded.played (headed : run.IsHeaded)
    (played : Played now tempo budget run actor actions later shown)
    (finite : actor.pose.rotation.isFinite = true) :
    later.IsHeaded ∧ shown.pose.rotation.isFinite = true := by
  induction played with
  | spent settled | waiting settled => exact headed.settled settled finite
  | ended settled =>
    obtain ⟨⟨pose, moves⟩, rotation⟩ := headed.settled settled finite
    exact ⟨⟨pose, moves⟩, rotation⟩
  | began settled asked _ ih =>
    obtain ⟨carriedOn, rotation⟩ := headed.settled settled finite
    refine ih (carriedOn.begun asked) ?_
    rw [begin_actor]
    exact rotation

end Run

/-! ## Everyone -/

/-- What no call spoils about an actor. -/
structure Headed (actor : Actor) (run : Option Run) : Prop where
  rotation : actor.pose.rotation.isFinite = true
  moves : ∀ playing, run = some playing → playing.IsHeaded

section

variable [Trigonometry]

theorem lasting_headed : Lasting Headed where
  script _ headed := ⟨headed.rotation, headed.moves⟩
  cursor _ headed := ⟨headed.rotation, fun _ same =>
    Option.some.inj same ▸ ⟨(headed.moves _ rfl).pose, (headed.moves _ rfl).moves⟩⟩
  finished _ headed := ⟨headed.rotation, nofun⟩
  played played headed := by
    obtain ⟨goesOn, rotation⟩ := (headed.moves _ rfl).played played headed.rotation
    exact ⟨rotation, fun _ same => Option.some.inj same ▸ goesOn⟩
  moved _ headed := ⟨headed.rotation, headed.moves⟩
  sentHome _ headed := ⟨isFinite_zero, headed.moves⟩

variable [LawfulIdSource] {stage : Stage} {settings : Settings} {actor : Actor}

/-- A walk to another place keeps the heading of its actor. -/
theorem rotation_of_handOff {part : Part} (member : part ∈ stage.currentLineup.parts)
    {target : Pose} (walks : part.handOff = some target) :
    target.rotation = part.actor.pose.rotation := by
  obtain ⟨i, origin, _, isPart⟩ := exists_origin stage.settings stage.cast member
  rw [isPart] at walks
  obtain ⟨_, rfl⟩ := by simpa [partOf] using walks
  rfl

theorem headed_run {part : Part} (member : part ∈ stage.currentLineup.parts)
    (headed : Headed part.actor none) :
    Headed { part.actor with script := part.script }
      (some (part.run stage.settings.moveDuration)) := by
  refine ⟨headed.rotation, fun playing same => Option.some.inj same ▸ ?_⟩
  cases walks : part.handOff with
  | none => exact ⟨by simpa [Part.run, walks] using headed.rotation, by simp [Part.run, walks]⟩
  | some target =>
    have kept : target.rotation.isFinite = true := by
      rw [rotation_of_handOff member walks]
      exact headed.rotation
    refine ⟨by simpa [Part.run, walks] using kept, fun tween same => ?_⟩
    obtain rfl := by simpa [Part.run, walks] using same
    exact ⟨headed.rotation, kept⟩

theorem Reachable.headed (reachable : Reachable settings stage) : stage.EachActor Headed := by
  induction reachable with
  | new => exact fun _ member => nomatch member
  | after call reachable ih =>
    exact ih.outcome (coherent_of_reachable reachable) lasting_headed
      (fun _ _ => ⟨isFinite_zero, nofun⟩) (fun _ => headed_run) (outcome_after _ call)

/-! ## What is shown -/

/-- At any time every heading is finite, and what is shown of it is the nearest number to the angle
    within one turn. It is not below zero, and it is less than 360 unless the angle is within half a
    place of the whole turn: what is shown then is 360. -/
theorem display_within_turn (reachable : Reachable settings stage) (member : actor ∈ stage.actors) :
    actor.pose.rotation.isFinite = true ∧
      IsNearest .binary32 (withinTurn (value actor.pose.rotation))
        (fields32 actor.pose.displayRotation) ∧
      0 ≤ actor.pose.displayRotation ∧ actor.pose.displayRotation ≤ 360 ∧
      (actor.pose.displayRotation < 360 ↔
        withinTurn (value actor.pose.rotation) < 360 - 1 / 2 ^ 16) := by
  have finite := (reachable.headed actor member).rotation
  exact ⟨finite, isNearest_wrapDegrees finite, nonneg_wrapDegrees finite, wrapDegrees_le finite,
    wrapDegrees_lt_iff finite⟩

end

/-- A cat on its way to a heading. -/
def turningCat (degrees : String) (now : Nat) : Stage :=
  let turn := (Block.new .turn (Params.empty.set "degrees" (.text degrees)) ⟨0⟩).1
  (Stage.new .standard).afterAll [.add "cat", .append ⟨0, 1⟩ turn, .start 0, .tick now]

/-- Halfway to a heading of -90 degrees. -/
theorem turningCat_within_turn :
    Reachable .standard (turningCat "-90" 150000000) ∧
      ∃ actor ∈ (turningCat "-90" 150000000).actors, actor.pose.rotation = -45 ∧
        actor.pose.displayRotation = 315 ∧
        (actor.pose.displayRotation < 360 ↔ withinTurn (value (-45)) < 360 - 1 / 2 ^ 16) := by
  have reachable : Reachable .standard (turningCat "-90" 150000000) := Reachable.new.afterAll _
  obtain ⟨actor, listed⟩ : ∃ actor, (turningCat "-90" 150000000).actors = [actor] :=
    List.length_eq_one_iff.mp (by decide +kernel)
  have rotations : (turningCat "-90" 150000000).actors.map (·.pose.rotation) = [-45] := by
    decide +kernel
  have shown : (turningCat "-90" 150000000).actors.map (·.pose.displayRotation) = [315] := by
    decide +kernel
  rw [listed] at rotations shown
  have member : actor ∈ (turningCat "-90" 150000000).actors := listed ▸ List.mem_cons_self
  obtain ⟨_, _, _, _, below⟩ := display_within_turn reachable member
  obtain rotation : actor.pose.rotation = -45 := List.singleton_inj.mp rotations
  exact ⟨reachable, actor, member, rotation, List.singleton_inj.mp shown, rotation ▸ below⟩

/-- A turn of a hundred millionth of a degree to the left shows a whole turn. -/
theorem turningCat_whole_turn :
    Reachable .standard (turningCat "-0.00000001" 300000000) ∧
      (turningCat "-0.00000001" 300000000).running = false ∧
      ∃ actor ∈ (turningCat "-0.00000001" 300000000).actors,
        actor.pose.displayRotation = 360 ∧ ¬ actor.pose.displayRotation < 360 := by
  obtain ⟨actor, listed⟩ : ∃ actor, (turningCat "-0.00000001" 300000000).actors = [actor] :=
    List.length_eq_one_iff.mp (by decide +kernel)
  have shown :
      (turningCat "-0.00000001" 300000000).actors.map (·.pose.displayRotation) = [360] := by
    decide +kernel
  rw [listed] at shown
  obtain whole : actor.pose.displayRotation = 360 := List.singleton_inj.mp shown
  refine ⟨Reachable.new.afterAll _, by decide +kernel, actor, listed ▸ List.mem_cons_self, whole,
    ?_⟩
  rw [whole]
  decide

end Troupe.Stage
