import Troupe.Proofs.Geometry.Sound
import Troupe.Proofs.Script.Projection

/-! # Scripts lead to sound poses

Whatever was typed into a block, its amounts are finite, and from a sound pose an action with
finite amounts leads to a sound pose again. So does a whole script.
-/

namespace Troupe.Script

open Troupe.Geometry
open Troupe.Number

/-! ## Amounts -/

theorem Param.isFinite_of_asNumber? {param : Param} {value : Float}
    (reads : param.asNumber? = some value) : value.isFinite = true := by
  cases param with
  | number given =>
    obtain ⟨finite, rfl⟩ := by simpa [asNumber?] using reads
    exact finite
  | text given =>
    simp only [asNumber?, Decimal.leadingNumber?] at reads
    split at reads
    case h_1 => cases reads
    case h_2 numeral _ _ =>
      obtain ⟨finite, rfl⟩ := by simpa using reads
      exact finite

theorem Params.isFinite_amount (params : Params) (name : String) :
    (params.amount name).isFinite = true := by
  unfold amount
  split
  case h_1 value reads =>
    obtain ⟨param, _, number⟩ := Option.bind_eq_some_iff.mp reads
    exact isFinite_saturate (Param.isFinite_of_asNumber? number)
  case h_2 => decide

/-! ## Actions -/

def Action.IsFinite : Action → Prop
  | .walk steps => steps.isFinite = true
  | .rotate degrees => degrees.isFinite = true
  | .walkTo target => target.IsFinite
  | .show _ _ => True

theorem Block.isFinite_of_action? {block : Block} {action : Action}
    (acts : block.action? = some action) : action.IsFinite := by
  cases kind : block.kind with
  | move | turn =>
    obtain rfl := by simpa [action?, kind] using acts
    exact block.params.isFinite_amount _
  | goTo =>
    obtain rfl := by simpa [action?, kind] using acts
    exact ⟨block.params.isFinite_amount _, block.params.isFinite_amount _⟩
  | say | think =>
    obtain rfl := by simpa [action?, kind] using acts
    trivial
  | loop | unknown => simp [action?, kind] at acts

theorem Cursor.isFinite_of_next {cursor moved : Cursor} {action : Action}
    (asked : cursor.next = (some action, moved)) : action.IsFinite := by
  obtain ⟨block, acts⟩ := exists_block_of_next asked
  exact Block.isFinite_of_action? acts

variable [Trigonometry] {bounds : Bounds} {pose : Pose}

theorem Action.sound_lead (bounded : Trigonometry.IsBounded) {action : Action}
    (finite : action.IsFinite) (sound : pose.IsSound) (roomy : bounds.max.IsFinite) :
    (action.lead bounds pose).IsSound := by
  cases action with
  | walk => exact ⟨Pose.sound_advanced bounded sound finite roomy, sound.rotation⟩
  | rotate =>
    refine ⟨sound.position, isFinite_clamp_largest ?_⟩
    exact isNaN_add sound.rotation (isNaN_of_isFinite finite)
  | walkTo => exact ⟨Bounds.sound_clamp roomy finite.isNumber, sound.rotation⟩
  | «show» => exact sound

/-! ## Scripts -/

theorem Cursor.sound_finalPose (bounded : Trigonometry.IsBounded) (cursor : Cursor)
    (sound : pose.IsSound) (roomy : bounds.max.IsFinite) :
    (cursor.finalPose pose bounds).IsSound := by
  fun_induction finalPose cursor pose bounds with
  | case1 => exact sound
  | case2 cursor pose action moved asked ih =>
    exact ih (Action.sound_lead bounded (isFinite_of_next asked) sound roomy)

theorem sound_projectedPose (bounded : Trigonometry.IsBounded) (script : List Block)
    (sound : pose.IsSound) (roomy : bounds.max.IsFinite) :
    (projectedPose script pose bounds).IsSound :=
  Cursor.sound_finalPose bounded _ sound roomy

end Troupe.Script
