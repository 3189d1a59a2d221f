import Troupe.Proofs.Script.Cursor

/-! # What is on the stack of a cursor

Every list on the stack has a pass left, the current one included, and something to play in it.
A list enters only if both hold, and it leaves with its last pass, so counting passes down never
goes below zero.

* `Frame.IsStocked`, `Cursor.IsStocked` — the invariant.
* `Cursor.next_keeps`, `Cursor.after_keeps` — what every step keeps.
* `isStocked_ofBody`, `Cursor.IsStocked.next` — it holds of a fresh cursor, and a request keeps it.
-/

namespace Troupe.Script

/-- Whether a list has a pass left and an action to come to in every pass. -/
structure Frame.IsStocked (frame : Frame) : Prop where
  remaining : 0 < frame.remaining
  acts : expand frame.body ≠ []

namespace Cursor

/-! ## What steps keep -/

section Kept

variable {Kept : Cursor → Prop} {cursor : Cursor}

/-- What a step keeps is kept by a request. -/
theorem next_keeps (keeps : ∀ cursor, Kept cursor →
      (∀ moved, cursor.step = .moved moved → Kept moved) ∧
        ∀ action moved, cursor.step = .acted action moved → Kept moved) (kept : Kept cursor) :
    Kept cursor.next.2 := by
  fun_induction Cursor.next cursor with
  | case1 cursor finished => exact kept
  | case2 cursor moved moves ih => exact ih ((keeps cursor kept).1 moved moves)
  | case3 cursor action moved acts => exact (keeps cursor kept).2 action moved acts

theorem after_keeps (keeps : ∀ cursor, Kept cursor →
      (∀ moved, cursor.step = .moved moved → Kept moved) ∧
        ∀ action moved, cursor.step = .acted action moved → Kept moved) (kept : Kept cursor)
    (requests : Nat) : Kept (cursor.after requests) := by
  induction requests with
  | zero => exact kept
  | succ requests ih => exact next_keeps keeps ih

end Kept

/-! ## Lists with a pass left -/

def IsStocked (cursor : Cursor) : Prop :=
  ∀ frame ∈ cursor.frames, frame.IsStocked

theorem isStocked_done : done.IsStocked := by
  intro frame member
  cases member

theorem isStocked_cons_iff {frame : Frame} {below : List Frame} :
    IsStocked ⟨frame :: below⟩ ↔ frame.IsStocked ∧ IsStocked ⟨below⟩ :=
  List.forall_mem_cons

variable {cursor moved : Cursor}

theorem IsStocked.push (stocked : cursor.IsStocked) (body : List Block) (times : Nat) :
    (cursor.push body times).IsStocked := by
  unfold Cursor.push
  split
  case isTrue enters =>
    simp only [Bool.and_eq_true, decide_eq_true_eq, hasActions_iff] at enters
    exact isStocked_cons_iff.mpr ⟨⟨enters.1, enters.2⟩, stocked⟩
  case isFalse => exact stocked

theorem isStocked_ofBody (body : List Block) (times : Nat) : (ofBody body times).IsStocked :=
  isStocked_done.push body times

theorem isStocked_ofScript (script : List Block) : (ofScript script).IsStocked :=
  isStocked_ofBody _ _

theorem isStocked_afterPass {frame : Frame} {below : List Frame} (stocked : frame.IsStocked)
    (others : IsStocked ⟨below⟩) : (Cursor.afterPass frame below).IsStocked := by
  unfold Cursor.afterPass
  split
  case isTrue => exact others
  case isFalse more =>
    exact isStocked_cons_iff.mpr ⟨⟨Nat.sub_pos_of_lt (Nat.lt_of_not_le more), stocked.acts⟩, others⟩

/-- A step never leaves a list without a pass on the stack. -/
theorem IsStocked.step (stocked : cursor.IsStocked) :
    (∀ moved, cursor.step = .moved moved → moved.IsStocked) ∧
      ∀ action moved, cursor.step = .acted action moved → moved.IsStocked := by
  obtain ⟨frames⟩ := cursor
  cases frames with
  | nil => exact ⟨by rintro _ ⟨⟩, by rintro _ _ ⟨⟩⟩
  | cons frame below =>
    obtain ⟨own, others⟩ := isStocked_cons_iff.mp stocked
    cases rest : frame.rest with
    | nil =>
      simp only [Cursor.step, rest]
      refine ⟨?_, by rintro _ _ ⟨⟩⟩
      rintro _ ⟨⟩
      exact isStocked_afterPass own others
    | cons block blocks =>
      have passed : IsStocked ⟨{ frame with rest := blocks } :: below⟩ :=
        isStocked_cons_iff.mpr ⟨⟨own.remaining, own.acts⟩, others⟩
      simp only [Cursor.step, rest]
      cases block.action? with
      | some action =>
        refine ⟨by rintro _ ⟨⟩, ?_⟩
        rintro _ _ ⟨⟩
        exact passed
      | none =>
        refine ⟨?_, by rintro _ _ ⟨⟩⟩
        rintro _ ⟨⟩
        split
        · exact passed.push block.body block.times
        · exact passed

theorem IsStocked.next (stocked : cursor.IsStocked) : cursor.next.2.IsStocked :=
  next_keeps (fun _ => IsStocked.step) stocked

theorem IsStocked.of_next {asked : Option Action} (stocked : cursor.IsStocked)
    (asks : cursor.next = (asked, moved)) : moved.IsStocked := by
  have behind := stocked.next
  rwa [asks] at behind

theorem IsStocked.after (stocked : cursor.IsStocked) (requests : Nat) :
    (cursor.after requests).IsStocked :=
  after_keeps (fun _ => IsStocked.step) stocked requests

end Cursor

end Troupe.Script
