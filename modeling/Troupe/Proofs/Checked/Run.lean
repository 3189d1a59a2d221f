import Troupe.Proofs.Checked.Cursor
import Troupe.Proofs.Stage.Playing

/-! # Runs without failures

A run moves positions into the bounds while it carries on, and asks its cursor for the next effect.
It does not fail as long as the cursor is stocked, and the cursor stays so.

* `settle`, `play` — a run in one frame.
* `settle_eq`, `play_eq` — it comes out as if nothing could fail.
-/

namespace Troupe.Checked

open Troupe.Geometry
open Troupe.Number (Trigonometry)
open Troupe.Script
open Troupe.Playback
open Troupe.Stage (Activity Run Tempo)

/-! ## Carrying on -/

def poseAt (tween : Tween) (fraction : Float32) (bounds : Bounds) : Option Pose := do
  let pose : Pose :=
    if 1 ≤ fraction then tween.finish
    else
      ⟨tween.start.position.between tween.finish.position fraction,
        tween.start.rotation * (1 - fraction) + tween.finish.rotation * fraction⟩
  let position ← clampInto bounds pose.position
  return pose.movedTo position

theorem poseAt_eq (tween : Tween) (fraction : Float32) (bounds : Bounds) :
    poseAt tween fraction bounds = some (tween.poseAt fraction bounds) := by
  simp only [poseAt, clampInto_eq]
  rfl

def stepTween (tween : Tween) (now : Nat) (bounds : Bounds) : Option (Tween × Pose × Progress) := do
  let startedAt := tween.startedAt.getD now
  let fraction := tween.fraction (now - startedAt)
  let pose ← poseAt tween fraction bounds
  return ({ tween with startedAt := some startedAt }, pose,
    if 1 ≤ fraction then .done else .pending)

theorem stepTween_eq (tween : Tween) (now : Nat) (bounds : Bounds) :
    stepTween tween now bounds = some (tween.step now bounds) := by
  simp only [stepTween, poseAt_eq]
  rfl

def stepActivity (activity : Activity) (actor : Actor) (now : Nat) (bounds : Bounds) :
    Option (Activity × Actor × Progress) :=
  match activity with
  | .tween playing => do
    let (later, pose, progress) ← stepTween playing now bounds
    return (.tween later, { actor with pose }, progress)
  | .bubble _ => some (activity.step actor now bounds)

theorem stepActivity_eq (activity : Activity) (actor : Actor) (now : Nat) (bounds : Bounds) :
    stepActivity activity actor now bounds = some (activity.step actor now bounds) := by
  cases activity with
  | tween playing => rw [stepActivity, stepTween_eq]; rfl
  | bubble => rfl

def settle (run : Run) (actor : Actor) (now : Nat) (bounds : Bounds) :
    Option (Run × Actor × Progress) :=
  match run.activity with
  | none => some (run, actor, .done)
  | some activity => do
    match ← stepActivity activity actor now bounds with
    | (activity, actor, .pending) =>
      return ({ run with activity := some activity }, actor, .pending)
    | (_, actor, .done) => return ({ run with activity := none }, actor, .done)

theorem settle_eq (run : Run) (actor : Actor) (now : Nat) (bounds : Bounds) :
    settle run actor now bounds = some (run.settle actor now bounds) := by
  unfold settle Run.settle
  cases run.activity with
  | none => rfl
  | some activity =>
    simp only [stepActivity_eq, Option.bind_eq_bind, Option.bind_some]
    rcases activity.step actor now bounds with ⟨later, shown, _ | _⟩ <;> rfl

/-! ## Going as far as possible -/

variable [Trigonometry]

def play (now : Nat) (tempo : Tempo) : (budget : Nat) → Run → Actor → Option (Run × Actor)
  | 0, run, actor => do
    let (run, actor, _) ← settle run actor now tempo.bounds
    return (run, actor)
  | budget + 1, run, actor => do
    match ← settle run actor now tempo.bounds with
    | (run, actor, .pending) => return (run, actor)
    | (run, actor, .done) =>
      match ← next run.cursor with
      | (none, cursor) => return ({ run with cursor }, actor)
      | (some action, cursor) =>
        let effect ← effect action run.pose tempo.bounds
        let (run, actor) := Run.begin { run with cursor } actor effect tempo
        play now tempo budget run actor

/-- The induction is on the budget. Neither carrying on nor the start of an effect touches the
    cursor, and a request keeps it stocked. -/
theorem play_eq {run : Run} (stocked : run.cursor.IsStocked) (now : Nat) (tempo : Tempo)
    (budget : Nat) (actor : Actor) :
    play now tempo budget run actor = some (run.play now tempo budget actor) := by
  induction budget generalizing run actor with
  | zero =>
    simp only [play, Run.play, settle_eq, Option.bind_eq_bind, Option.bind_some]
    rfl
  | succ budget ih =>
    have settled := run.settled actor now tempo.bounds
    rcases settles : run.settle actor now tempo.bounds with ⟨later, shown, _ | _⟩
    · simp only [play, Run.play, settle_eq, settles, Option.bind_eq_bind, Option.bind_some]
      rfl
    · have kept : later.cursor.IsStocked := by
        rw [settles] at settled
        rw [settled.run_eq]
        exact stocked
      rcases asks : later.cursor.next with ⟨_ | action, cursor⟩
      · simp only [play, Run.play, settle_eq, settles, next_eq kept, asks, Option.bind_eq_bind,
          Option.bind_some]
        rfl
      · simp only [play, Run.play, settle_eq, settles, next_eq kept, asks, effect_eq,
          Option.bind_eq_bind, Option.bind_some]
        refine ih ?_ _
        rw [Run.begin_run]
        exact kept.of_next asks

end Troupe.Checked
