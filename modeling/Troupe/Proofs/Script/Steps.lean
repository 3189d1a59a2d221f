import Mathlib
import Troupe.Script.Forest
import Troupe.Proofs.Script.Stock

/-! # How many steps a request takes

A request steps until it comes to an action or off the stack. Loops without an action never get on
the stack, so a list that starts a new pass has an action in it, and so has a list that is entered:
the steps from there visit blocks of that list only, each at most once. Before that, a step visits
a block that lies ahead on the stack or leaves a list behind. The lists on the stack are nested in
the lowest one, and so there are no more steps than that has blocks, twice over.

* `Cursor.steps`, `Cursor.nextWithin` — the steps of a request, and a request with a limit on them.
* `steps_le_of_acts`, `steps_le` — the steps that lead to an action, and all others.
* `Cursor.IsNested` — what blocks lie ahead on the stack.
* `answers_within_blocks` — a request needs no more steps than the blocks of the lowest list allow,
  however often its loops are played.
-/

namespace Troupe.Script

/-! ## Blocks ahead -/

theorem length_preorder_cons (block : Block) (rest : List Block) :
    (preorder (block :: rest)).length =
      (preorder block.body).length + (preorder rest).length + 1 := by
  obtain ⟨id, kind, params, body⟩ := block
  simp only [preorder, Block.preorder, List.length_append, List.length_cons]
  omega

namespace Frame

/-- The number of blocks in a list on the stack, those in the bodies of others included. -/
def size (frame : Frame) : Nat :=
  (preorder frame.body).length

/-- The number of blocks in the rest of the current pass. -/
def ahead (frame : Frame) : Nat :=
  (preorder frame.rest).length

theorem ahead_of_rest {frame : Frame} {block : Block} {blocks : List Block}
    (rest : frame.rest = block :: blocks) :
    frame.ahead = (preorder block.body).length + (preorder blocks).length + 1 := by
  rw [ahead, rest, length_preorder_cons]

end Frame

namespace Cursor

/-- The blocks that lie ahead on the stack, and the ends of the passes they are in. -/
def ahead (cursor : Cursor) : Nat :=
  (cursor.frames.map fun frame => frame.ahead + 1).sum

/-- The number of blocks in the lowest list on the stack, and zero for the empty stack. -/
def size (cursor : Cursor) : Nat :=
  (cursor.frames.getLast?.map Frame.size).getD 0

theorem ahead_cons (frame : Frame) (below : List Frame) :
    ahead ⟨frame :: below⟩ = frame.ahead + 1 + ahead ⟨below⟩ := by
  simp only [ahead, List.map_cons, List.sum_cons]

/-! ## Steps of a request -/

/-- The number of steps that a request takes, the one that answers it included. -/
def steps (cursor : Cursor) : Nat :=
  match _hstep : cursor.step with
  | .finished => 1
  | .moved moved => steps moved + 1
  | .acted _ _ => 1
termination_by cursor.work
decreasing_by exact (work_step_lt cursor).1 moved _hstep

/-- A request that is given up when it is not answered in so many steps. -/
def nextWithin : (fuel : Nat) → Cursor → Option (Option Action × Cursor)
  | 0, _ => none
  | fuel + 1, cursor =>
    match cursor.step with
    | .finished => some (none, cursor)
    | .moved moved => nextWithin fuel moved
    | .acted action moved => some (some action, moved)

theorem steps_of_finished {cursor : Cursor} (finished : cursor.step = .finished) :
    cursor.steps = 1 := by
  rw [steps]
  split <;> simp_all

theorem steps_of_moved {cursor moved : Cursor} (moves : cursor.step = .moved moved) :
    cursor.steps = moved.steps + 1 := by
  rw [steps]
  split <;> simp_all

theorem steps_of_acted {cursor moved : Cursor} {action : Action}
    (acts : cursor.step = .acted action moved) : cursor.steps = 1 := by
  rw [steps]
  split <;> simp_all

theorem nextWithin_eq {cursor : Cursor} {fuel : Nat} (enough : cursor.steps ≤ fuel) :
    cursor.nextWithin fuel = some cursor.next := by
  fun_induction next cursor generalizing fuel with
  | case1 cursor finished =>
    rw [steps_of_finished finished] at enough
    obtain ⟨rest, rfl⟩ := Nat.exists_eq_add_of_le' enough
    simp only [nextWithin, finished]
  | case2 cursor moved moves ih =>
    rw [steps_of_moved moves] at enough
    obtain ⟨rest, rfl⟩ := Nat.exists_eq_add_of_le' (Nat.le_trans (Nat.le_add_left 1 _) enough)
    simp only [nextWithin, moves]
    exact ih (Nat.le_of_succ_le_succ enough)
  | case3 cursor action moved acts =>
    rw [steps_of_acted acts] at enough
    obtain ⟨rest, rfl⟩ := Nat.exists_eq_add_of_le' enough
    simp only [nextWithin, acts]

/-- What a step comes to at a block: it has an action, it is a loop to enter, or it is passed by
    and plays nothing. -/
theorem step_block_cases {frame : Frame} {block : Block} {blocks : List Block}
    (below : List Frame) (rest : frame.rest = block :: blocks) :
    let passed : List Frame := { frame with rest := blocks } :: below
    (∃ action, step ⟨frame :: below⟩ = .acted action ⟨passed⟩) ∨
      (expand block.body ≠ [] ∧ step ⟨frame :: below⟩ =
        .moved ⟨{ body := block.body, rest := block.body, remaining := block.times } :: passed⟩) ∨
      (block.expand = [] ∧ step ⟨frame :: below⟩ = .moved ⟨passed⟩) := by
  simp only [step, rest]
  cases acts : block.action? with
  | some action => exact .inl ⟨action, rfl⟩
  | none =>
    right
    cases isLoop : block.isLoop with
    | false => exact .inr ⟨Block.expand_of_idle acts isLoop, rfl⟩
    | true =>
      simp only [if_true, push]
      split
      case isTrue enters =>
        simp only [Bool.and_eq_true, decide_eq_true_eq, hasActions_iff] at enters
        exact .inl ⟨enters.2, rfl⟩
      case isFalse skips =>
        refine .inr ⟨?_, rfl⟩
        rw [Block.expand_of_isLoop isLoop, flatten_replicate_eq_nil_iff]
        simp only [Bool.and_eq_true, decide_eq_true_eq, hasActions_iff] at skips
        by_cases never : block.times = 0
        · exact .inl never
        · exact .inr (Classical.not_not.mp fun acts => skips ⟨Nat.pos_of_ne_zero never, acts⟩)

/-! ## Bounds -/

/-- With an action ahead in the innermost list, a request visits blocks of that list only. -/
theorem steps_le_of_acts (frame : Frame) (below : List Frame) (acts : expand frame.rest ≠ []) :
    steps ⟨frame :: below⟩ ≤ frame.ahead := by
  cases rest : frame.rest with
  | nil => exact absurd (by rw [rest]; rfl) acts
  | cons block blocks =>
    have left := Frame.ahead_of_rest rest
    rcases step_block_cases below rest with ⟨action, acted⟩ | ⟨inside, enters⟩ | ⟨idle, passes⟩
    · rw [steps_of_acted acted]
      omega
    · have within := steps_le_of_acts ⟨block.body, block.body, block.times⟩
        ({ frame with rest := blocks } :: below) inside
      rw [steps_of_moved enters]
      simp only [Frame.ahead] at within
      omega
    · have later : expand blocks ≠ [] := by simpa [rest, expand, idle] using acts
      have within := steps_le_of_acts { frame with rest := blocks } below later
      rw [steps_of_moved passes]
      simp only [Frame.ahead] at within
      omega
termination_by frame.ahead
decreasing_by all_goals (simp only [Frame.ahead] at left ⊢; omega)

/-- A request first uses up what lies ahead on the stack. If it comes to no action, it takes a last
    step off the stack, or a list starts a new pass, which has an action. -/
theorem steps_le {frames : List Frame} {limit : Nat} (stocked : IsStocked ⟨frames⟩)
    (small : ∀ frame ∈ frames, frame.size ≤ limit) :
    steps ⟨frames⟩ ≤ ahead ⟨frames⟩ + limit + 1 := by
  cases frames with
  | nil =>
    rw [steps]
    simp [step]
  | cons frame below =>
    obtain ⟨own, others⟩ := isStocked_cons_iff.mp stocked
    obtain ⟨ownSize, otherSizes⟩ := List.forall_mem_cons.mp small
    cases rest : frame.rest with
    | nil =>
      have moves : step ⟨frame :: below⟩ = .moved (afterPass frame below) := by
        simp only [step, rest]
      rw [steps_of_moved moves, ahead_cons]
      unfold afterPass
      split
      case isTrue last =>
        have popped := steps_le others otherSizes
        omega
      case isFalse more =>
        have again := steps_le_of_acts
          { frame with rest := frame.body, remaining := frame.remaining - 1 } below own.acts
        simp only [Frame.ahead, Frame.size] at again ownSize
        omega
    | cons block blocks =>
      have left := Frame.ahead_of_rest rest
      rcases step_block_cases below rest with ⟨action, acted⟩ | ⟨inside, enters⟩ | ⟨-, passes⟩
      · rw [steps_of_acted acted]
        omega
      · have within := steps_le_of_acts ⟨block.body, block.body, block.times⟩
          ({ frame with rest := blocks } :: below) inside
        rw [steps_of_moved enters, ahead_cons]
        simp only [Frame.ahead] at within left ⊢
        omega
      · have stays : IsStocked ⟨{ frame with rest := blocks } :: below⟩ :=
          isStocked_cons_iff.mpr ⟨⟨own.remaining, own.acts⟩, others⟩
        have passed := steps_le stays (List.forall_mem_cons.mpr ⟨ownSize, otherSizes⟩)
        rw [steps_of_moved passes, ahead_cons]
        rw [ahead_cons] at passed
        simp only [Frame.ahead] at passed left ⊢
        omega
termination_by ahead ⟨frames⟩
decreasing_by
  · subst_vars
    rw [ahead_cons]
    omega
  · subst_vars
    rw [ahead_cons, ahead_cons]
    simp only [Frame.ahead] at left ⊢
    omega

/-! ## Nested lists -/

/-- The rest of a pass is a part of its list, and every list but the lowest is the body of a block
    that the list below has passed. Only the numbers of blocks are compared. -/
inductive IsNested : List Frame → Prop
  | done : IsNested []
  | lowest {frame : Frame} (part : frame.ahead ≤ frame.size) : IsNested [frame]
  | inside {inner outer : Frame} {below : List Frame} (part : inner.ahead ≤ inner.size)
      (fits : inner.size + outer.ahead < outer.size) (nested : IsNested (outer :: below)) :
      IsNested (inner :: outer :: below)

namespace IsNested

variable {frame later : Frame} {frames below : List Frame}

theorem part (nested : IsNested (frame :: below)) : frame.ahead ≤ frame.size := by
  cases nested with
  | lowest part | inside part => exact part

theorem tail (nested : IsNested (frame :: below)) : IsNested below := by
  cases nested with
  | lowest => exact .done
  | inside _ _ nested => exact nested

theorem replace (nested : IsNested (frame :: below)) (same : later.size = frame.size)
    (part : later.ahead ≤ later.size) : IsNested (later :: below) := by
  cases nested with
  | lowest => exact .lowest part
  | inside _ fits nested => exact .inside part (same ▸ fits) nested

theorem size_le (nested : IsNested frames) : ∀ frame ∈ frames, frame.size ≤ size ⟨frames⟩ := by
  induction nested with
  | done => exact fun _ member => nomatch member
  | lowest => simp [Cursor.size]
  | inside _ fits _ ih =>
    refine List.forall_mem_cons.mpr ⟨?_, ih⟩
    have outermost := (List.forall_mem_cons.mp ih).1
    simp only [Cursor.size, List.getLast?_cons_cons] at outermost ⊢
    omega

/-- A list and all that lies ahead in the lists below it have room in the lowest one. -/
theorem size_add_ahead_le (nested : IsNested (frame :: below)) :
    frame.size + ahead ⟨below⟩ ≤ size ⟨frame :: below⟩ := by
  induction below generalizing frame with
  | nil => simp [ahead, Cursor.size]
  | cons outer below ih =>
    cases nested with
    | inside part fits nested =>
      have room := ih nested
      simp only [Cursor.size, List.getLast?_cons_cons] at room ⊢
      rw [ahead_cons]
      omega

theorem ahead_le (nested : IsNested frames) : ahead ⟨frames⟩ ≤ size ⟨frames⟩ + 1 := by
  cases frames with
  | nil => exact Nat.zero_le _
  | cons frame below =>
    have part := nested.part
    have room := nested.size_add_ahead_le
    rw [ahead_cons]
    omega

theorem push {body : List Block} {times : Nat} (nested : IsNested (frame :: below))
    (fits : (preorder body).length + frame.ahead < frame.size) :
    IsNested (Cursor.push ⟨frame :: below⟩ body times).frames := by
  unfold Cursor.push
  split
  case isTrue => exact .inside (Nat.le_refl _) fits nested
  case isFalse => exact nested

theorem afterPass (nested : IsNested (frame :: below)) :
    IsNested (Cursor.afterPass frame below).frames := by
  unfold Cursor.afterPass
  split
  case isTrue => exact nested.tail
  case isFalse => exact nested.replace rfl (Nat.le_refl _)

variable {cursor : Cursor}

/-- Stepping over a block leaves room for its body. -/
theorem step (nested : IsNested cursor.frames) :
    (∀ moved, cursor.step = .moved moved → IsNested moved.frames) ∧
      ∀ action moved, cursor.step = .acted action moved → IsNested moved.frames := by
  obtain ⟨frames⟩ := cursor
  cases frames with
  | nil => exact ⟨by rintro _ ⟨⟩, by rintro _ _ ⟨⟩⟩
  | cons frame below =>
    cases rest : frame.rest with
    | nil =>
      simp only [Cursor.step, rest]
      refine ⟨?_, by rintro _ _ ⟨⟩⟩
      rintro _ ⟨⟩
      exact nested.afterPass
    | cons block blocks =>
      have part := nested.part
      rw [Frame.ahead_of_rest rest] at part
      have passed : IsNested ({ frame with rest := blocks } :: below) :=
        nested.replace rfl (Nat.le_trans (Nat.le_add_left _ _) (Nat.le_of_succ_le part))
      simp only [Cursor.step, rest]
      cases block.action? with
      | some action =>
        refine ⟨by rintro _ ⟨⟩, ?_⟩
        rintro _ _ ⟨⟩
        exact passed
      | none =>
        refine ⟨?_, by rintro _ _ ⟨⟩⟩
        rintro _ ⟨⟩
        split
        · exact passed.push part
        · exact passed

theorem after (nested : IsNested cursor.frames) (requests : Nat) :
    IsNested (cursor.after requests).frames :=
  after_keeps (fun _ => IsNested.step) nested requests

end IsNested

theorem isNested_ofBody (body : List Block) (times : Nat) :
    IsNested (ofBody body times).frames := by
  unfold ofBody push
  split
  case isTrue => exact .lowest (Nat.le_refl _)
  case isFalse => exact .done

/-! ## Requests to a script -/

theorem nextWithin_size {frames : List Frame} (stocked : IsStocked ⟨frames⟩)
    (nested : IsNested frames) :
    nextWithin (3 * size ⟨frames⟩ + 2) ⟨frames⟩ = some (next ⟨frames⟩) := by
  have used := steps_le stocked nested.size_le
  have left := nested.ahead_le
  exact nextWithin_eq (by omega)

/-- A request made to a list that is played any number of times, or to a whole script, after any
    requests before it, is answered within so many steps as three times the blocks of the lowest
    list on the stack, and two. The numbers of passes have no part in that: a list that plays
    nothing is not on the stack. -/
theorem answers_within_blocks (body script : List Block) (times requests : Nat) :
    let ofBody := (Cursor.ofBody body times).after requests
    let ofScript := (Cursor.ofScript script).after requests
    (ofBody.nextWithin (3 * ofBody.size + 2) = some ofBody.next ∧
        ∀ frame ∈ ofBody.frames, expand frame.body ≠ []) ∧
      ofScript.nextWithin (3 * ofScript.size + 2) = some ofScript.next ∧
        ∀ frame ∈ ofScript.frames, expand frame.body ≠ [] := by
  have answers (body : List Block) (times : Nat) :
      let cursor := (Cursor.ofBody body times).after requests
      cursor.nextWithin (3 * cursor.size + 2) = some cursor.next ∧
        ∀ frame ∈ cursor.frames, expand frame.body ≠ [] := by
    intro cursor
    have stocked := (isStocked_ofBody body times).after requests
    exact ⟨nextWithin_size stocked ((isNested_ofBody body times).after requests),
      fun frame member => (stocked frame member).acts⟩
  exact ⟨answers body times, answers _ _⟩

end Cursor

end Troupe.Script
