import Troupe.Proofs.Script.Expansion
import Troupe.Script.Projection

/-! # A cursor plays a script with its loops written out

The stack of a cursor holds, for every list on it, the rest of a pass and the passes to
come. `Cursor.upcoming` reads off the actions that this amounts to, and a step keeps them
but for the one it comes to. From there on the stack need not be opened again.

* `Cursor.upcoming` — the actions that a cursor has left.
* `Cursor.next_cases` — what a request returns, in terms of them.
* `Cursor.Yields` — what a cursor returns when it is asked again and again.
* `answer_eq_effect_of_unroll` — the requests to a cursor return the effects of the blocks
  that its list plays, in order, whatever poses they are made in.
-/

namespace Troupe.Script

open Troupe.Geometry (Pose Bounds)
open Troupe.Number (Trigonometry)

/-! ## The actions on the stack -/

/-- The actions that a list on the stack has left: those of the rest of this pass, and
    those of every later one. -/
def Frame.upcoming (frame : Frame) : List Action :=
  expand frame.rest ++ (List.replicate (frame.remaining - 1) (expand frame.body)).flatten

namespace Cursor

def upcoming (cursor : Cursor) : List Action :=
  cursor.frames.flatMap Frame.upcoming

@[simp] theorem upcoming_done : done.upcoming = [] := rfl

@[simp] theorem upcoming_cons (frame : Frame) (below : List Frame) :
    upcoming ⟨frame :: below⟩ = frame.upcoming ++ upcoming ⟨below⟩ := rfl

theorem upcoming_push (cursor : Cursor) (body : List Block) (times : Nat) :
    (cursor.push body times).upcoming =
      (List.replicate times (expand body)).flatten ++ cursor.upcoming := by
  unfold push
  split
  case isTrue enters =>
    simp only [Bool.and_eq_true, decide_eq_true_eq] at enters
    obtain ⟨passes, rfl⟩ : ∃ passes, times = passes + 1 := ⟨times - 1, by omega⟩
    simp [Frame.upcoming, List.replicate_succ, upcoming]
  case isFalse skips =>
    -- A list is left alone when it is played no time or has no action: nothing is lost.
    have nothing : (List.replicate times (expand body)).flatten = [] := by
      rw [flatten_replicate_eq_nil_iff]
      have noActions := not_congr (hasActions_iff body)
      simp only [Bool.and_eq_true, decide_eq_true_eq] at skips
      by_cases never : times = 0
      · exact .inl never
      · exact .inr (Classical.not_not.mp (noActions.mp fun acts => skips ⟨by omega, acts⟩))
    rw [nothing, List.nil_append]

theorem upcoming_afterPass {frame : Frame} (below : List Frame) (passed : frame.rest = []) :
    (afterPass frame below).upcoming = upcoming ⟨frame :: below⟩ := by
  unfold afterPass
  split
  case isTrue last =>
    have noneLeft : frame.remaining - 1 = 0 := by omega
    simp [Frame.upcoming, passed, noneLeft, expand]
  case isFalse more =>
    obtain ⟨passes, left⟩ : ∃ passes, frame.remaining - 1 = passes + 1 :=
      ⟨frame.remaining - 2, by omega⟩
    simp [Frame.upcoming, passed, left, expand, List.replicate_succ]

theorem isFinished_ofBody (body : List Block) (times : Nat) :
    (ofBody body times).isFinished = (List.replicate times (expand body)).flatten.isEmpty := by
  have startsWith := upcoming_push done body times
  simp only [upcoming_done, List.append_nil] at startsWith
  rw [← startsWith]
  unfold ofBody push
  split
  case isTrue enters =>
    simp only [Bool.and_eq_true, decide_eq_true_eq, hasActions_iff] at enters
    simp [isFinished, Frame.upcoming, enters.2]
  case isFalse skips => rfl

/-! ## Steps and requests -/

/-- A step keeps the actions that are left, except for the one it comes to. It comes to an
    action inside some list, so that list stays on the stack. -/
theorem upcoming_step (cursor : Cursor) :
    match cursor.step with
    | .finished => cursor = done
    | .moved moved => moved.upcoming = cursor.upcoming
    | .acted action moved =>
      cursor.upcoming = action :: moved.upcoming ∧ moved.isFinished = false := by
  obtain ⟨frames⟩ := cursor
  cases frames with
  | nil => rfl
  | cons frame below =>
    cases rest : frame.rest with
    | nil => simpa only [step, rest] using upcoming_afterPass below rest
    | cons block blocks =>
      -- A block has an action, is a loop to enter, or is passed by.
      cases acts : block.action? with
      | some action =>
        simp [step, rest, acts, Frame.upcoming, expand, Block.expand_of_action? acts, isFinished]
      | none =>
        simp only [step, rest, acts]
        cases isLoop : block.isLoop with
        | true =>
          simp [upcoming_push, Frame.upcoming, rest, expand, Block.expand_of_isLoop isLoop]
        | false =>
          simp [Frame.upcoming, rest, expand, Block.expand_of_idle acts isLoop]

/-- What a request returns: the first of the actions that are left, the cursor staying on
    the stack; or nothing when none is left, the stack being empty from then on. -/
theorem next_cases (cursor : Cursor) :
    (cursor.upcoming = [] ∧ cursor.next = (none, done)) ∨
      ∃ action moved, cursor.next = (some action, moved) ∧
        cursor.upcoming = action :: moved.upcoming ∧ moved.isFinished = false := by
  fun_induction next cursor with
  | case1 cursor finished =>
    have stepped := upcoming_step cursor
    simp only [finished] at stepped
    exact .inl ⟨by rw [stepped, upcoming_done], by rw [stepped]⟩
  | case2 cursor moved moves ih =>
    have stepped := upcoming_step cursor
    simp only [moves] at stepped
    rwa [← stepped]
  | case3 cursor action moved acted =>
    have stepped := upcoming_step cursor
    simp only [acted] at stepped
    exact .inr ⟨action, moved, rfl, stepped⟩

theorem upcoming_of_next_some {cursor moved : Cursor} {action : Action}
    (asked : cursor.next = (some action, moved)) : cursor.upcoming = action :: moved.upcoming := by
  rcases next_cases cursor with ⟨_, asks⟩ | ⟨_, _, asks, left, _⟩
  · cases asks.symm.trans asked
  · cases asks.symm.trans asked
    exact left

theorem upcoming_of_next_none {cursor moved : Cursor} (asked : cursor.next = (none, moved)) :
    cursor.upcoming = [] ∧ moved = done := by
  rcases next_cases cursor with ⟨nothing, asks⟩ | ⟨_, _, asks, _⟩
  · cases asks.symm.trans asked
    exact ⟨nothing, rfl⟩
  · cases asks.symm.trans asked

theorem exists_block_of_next {cursor moved : Cursor} {action : Action}
    (asked : cursor.next = (some action, moved)) :
    ∃ block : Block, block.action? = some action := by
  fun_induction next cursor with
  | case1 => simp at asked
  | case2 cursor middle moves ih => exact ih asked
  | case3 cursor found after acted =>
    obtain ⟨rfl, rfl⟩ := by simpa using asked
    unfold step at acted
    split at acted
    · simp at acted
    · split at acted
      · simp at acted
      · split at acted
        case h_1 acts =>
          obtain ⟨rfl, rfl⟩ := by simpa using acted
          exact ⟨_, acts⟩
        case h_2 => simp at acted

theorem upcoming_of_isFinished {cursor : Cursor} (finished : cursor.isFinished = true) :
    cursor.upcoming = [] := by
  obtain ⟨frames⟩ := cursor
  simp_all [isFinished, upcoming]

theorem next_of_isFinished {cursor : Cursor} (finished : cursor.isFinished = true) :
    cursor.next = (none, cursor) := by
  obtain ⟨frames⟩ := cursor
  obtain rfl : frames = [] := List.isEmpty_iff.mp finished
  rw [next]
  rfl

/-! ## Requests one after the other -/

def after (cursor : Cursor) : Nat → Cursor
  | 0 => cursor
  | requests + 1 => (cursor.after requests).next.2

/-- Asked again and again, the cursor returns these actions in this order and then
    nothing. -/
def Yields (cursor : Cursor) (actions : List Action) : Prop :=
  ∀ requests, (cursor.after requests).next.1 = actions[requests]?

theorem upcoming_next (cursor : Cursor) : cursor.next.2.upcoming = cursor.upcoming.tail := by
  rcases next_cases cursor with ⟨none, asked⟩ | ⟨action, moved, asked, left, _⟩
  · rw [asked, none]; rfl
  · rw [asked, left]; rfl

theorem upcoming_after (cursor : Cursor) (requests : Nat) :
    (cursor.after requests).upcoming = cursor.upcoming.drop requests := by
  induction requests with
  | zero => rfl
  | succ requests ih => rw [after, upcoming_next, ih, List.tail_drop]

theorem next_eq_head? (cursor : Cursor) : cursor.next.1 = cursor.upcoming.head? := by
  rcases next_cases cursor with ⟨none, asked⟩ | ⟨action, moved, asked, left, _⟩
  · rw [asked, none]; rfl
  · rw [asked, left]; rfl

theorem yields_upcoming (cursor : Cursor) : cursor.Yields cursor.upcoming := by
  intro requests
  rw [next_eq_head?, upcoming_after, List.head?_drop]

theorem isFinished_next (cursor : Cursor) : cursor.next.2.isFinished = cursor.next.1.isNone := by
  rcases next_cases cursor with ⟨_, asked⟩ | ⟨action, moved, asked, _, onStack⟩
  · rw [asked]; rfl
  · rw [asked]; exact onStack

end Cursor

/-! ## Scripts -/

theorem upcoming_ofPlaylist (playlist : Playlist) :
    (Cursor.ofPlaylist playlist).upcoming = playlist.expand := by
  simp [Cursor.ofPlaylist, Cursor.ofBody, Cursor.upcoming_push, Playlist.expand]

variable [Trigonometry]

/-- The effect of a block on a sprite in a pose, if the block has one of its own. -/
def Block.effect? (block : Block) (pose : Pose) (bounds : Bounds) : Option Effect :=
  block.action?.map (·.effect pose bounds)

def Cursor.answer (cursor : Cursor) (pose : Pose) (bounds : Bounds) : Option Effect :=
  cursor.next.1.map (·.effect pose bounds)

/-- The requests to a cursor return the effects of the blocks that the list plays, in
    order and each in the pose the request is made in, and then nothing. The cursor is off
    the stack at first if the list plays no block, and later behind a request that
    returned nothing. A whole script is played the same way: its blocks except for the
    loops, as often as the first loop says. -/
theorem answer_eq_effect_of_unroll (body script : List Block) (times : Nat)
    (pose : Nat → Pose) (bounds : Nat → Bounds) :
    let played := (List.replicate times (unroll body)).flatten
    let cursor := Cursor.ofBody body times
    let answer k := (cursor.after k).answer (pose k) (bounds k)
    (∀ k, answer k = played[k]?.bind (·.effect? (pose k) (bounds k))) ∧
      (∀ k, (answer k).isSome ↔ k < played.length) ∧
      (cursor.isFinished ↔ played = []) ∧
      (∀ k, (cursor.after (k + 1)).isFinished = (answer k).isNone) ∧
      Cursor.ofScript script = Cursor.ofBody (script.filter fun block => !block.isLoop)
        (match script.find? Block.isLoop with
          | some loop => loop.times
          | none => 1) := by
  intro played cursor answer
  -- The list is unrolled into blocks and the cursor yields actions; it is the actions that agree.
  have actions : played.map Block.action? =
      (List.replicate times (expand body)).flatten.map some := by
    simp only [played, List.map_flatten, List.map_replicate, map_action?_unroll]
  have left : cursor.upcoming = (List.replicate times (expand body)).flatten := by
    simp [cursor, Cursor.ofBody, Cursor.upcoming_push]
  have lengths : played.length = cursor.upcoming.length := by
    simpa [left] using congrArg List.length actions
  have answers (k : Nat) :
      answer k = cursor.upcoming[k]?.map (·.effect (pose k) (bounds k)) :=
    congrArg (Option.map fun action : Action => action.effect (pose k) (bounds k))
      (cursor.yields_upcoming k)
  refine ⟨?effect, ?answered, ?start, ?behind, ?whole⟩
  case effect =>
    intro k
    have atPlace : played[k]?.map Block.action? = cursor.upcoming[k]?.map some := by
      rw [left, ← List.getElem?_map, ← List.getElem?_map, actions]
    rw [answers]
    cases block : played[k]? with
    | none =>
      rw [block, Option.map_none] at atPlace
      rw [Option.map_eq_none_iff.mp atPlace.symm]
      rfl
    | some found =>
      rw [block, Option.map_some] at atPlace
      obtain ⟨action, comes, acts⟩ := Option.map_eq_some_iff.mp atPlace.symm
      rw [comes, Option.bind_some, Block.effect?, ← acts]
  case answered =>
    intro k
    rw [answers, Option.isSome_map, lengths]
    simp
  case start =>
    rw [Cursor.isFinished_ofBody, ← left, List.isEmpty_iff, ← List.length_eq_zero_iff,
      ← List.length_eq_zero_iff, lengths]
  case behind =>
    intro k
    simp only [answer, Cursor.answer, Option.isNone_map, Cursor.after, Cursor.isFinished_next]
  case whole =>
    simp only [Cursor.ofScript, Cursor.ofPlaylist, Playlist.ofScript]
    cases script.find? Block.isLoop <;> rfl

end Troupe.Script
