import Troupe.Script.Expansion

/-! # Cursors

A cursor is a place in a script that is being played: a stack of block lists, each with
what is left of the current pass and how many passes remain. `Cursor.next` moves on to
the next action. It looks at no pose, so the same cursor serves the animated run and the
projection.

* `Cursor.ofBody`, `Cursor.ofPlaylist`, `Cursor.ofScript` — a cursor before the first
  action.
* `Cursor.step` — one move inside the stack.
* `Cursor.next` — moves until there is an action or the stack is empty.
* `Cursor.work` — what the steps of a cursor use up; it bounds how many there are.
-/

namespace Troupe.Script

/-! ## The stack -/

/-- A block list being played: the whole list, what is left of the current pass, and the
    passes that remain, the current one included. -/
structure Frame where
  body : List Block
  rest : List Block
  remaining : Nat
deriving Repr, Inhabited

/-- A place in a script, as a stack of block lists with the innermost first. -/
structure Cursor where
  frames : List Frame
deriving Repr, Inhabited

namespace Cursor

def done : Cursor := ⟨[]⟩

/-- Whether nothing is left on the stack. A cursor behind its last action still holds
    the lists it has not been asked to leave. -/
def isFinished (cursor : Cursor) : Bool :=
  cursor.frames.isEmpty

/-- Enters a block list, unless it is played no time or has no action in it. -/
def push (cursor : Cursor) (body : List Block) (times : Nat) : Cursor :=
  if 0 < times && hasActions body then ⟨⟨body, body, times⟩ :: cursor.frames⟩ else cursor

def ofBody (body : List Block) (times : Nat) : Cursor :=
  done.push body times

def ofPlaylist (playlist : Playlist) : Cursor :=
  ofBody playlist.body playlist.count

def ofScript (script : List Block) : Cursor :=
  ofPlaylist (.ofScript script)

/-! ## Steps -/

/-- What one step of a cursor comes to. -/
inductive Step where
  /-- The stack is empty. -/
  | finished
  /-- The cursor has moved and has to be asked again. -/
  | moved (cursor : Cursor)
  /-- The cursor has moved over a block with this action. -/
  | acted (action : Action) (cursor : Cursor)
deriving Repr, Inhabited

/-- The cursor behind a pass that is over: at the start of the next pass, or below the
    list that was played. -/
def afterPass (frame : Frame) (below : List Frame) : Cursor :=
  if frame.remaining ≤ 1 then ⟨below⟩
  else ⟨{ frame with rest := frame.body, remaining := frame.remaining - 1 } :: below⟩

/-- One step: over the end of a pass, into a loop, over a block without an action, or
    over a block with one. -/
def step (cursor : Cursor) : Step :=
  match cursor.frames with
  | [] => .finished
  | frame :: below =>
    match frame.rest with
    | [] => .moved (afterPass frame below)
    | block :: rest =>
      let passed : Cursor := ⟨{ frame with rest } :: below⟩
      match block.action? with
      | some action => .acted action passed
      | none => .moved (if block.isLoop then passed.push block.body block.times else passed)

end Cursor

/-! ## Work -/

mutual

/-- The steps that a block can take: one to pass it, and for a loop those of its passes. -/
def Block.work : Block → Nat
  | ⟨_, kind, params, body⟩ =>
    if kind = .loop then 1 + params.count "times" * (work body + 1) else 1

def work : List Block → Nat
  | [] => 0
  | block :: rest => block.work + work rest

end

theorem Block.work_pos (block : Block) : 0 < block.work := by
  obtain ⟨id, kind, params, body⟩ := block
  unfold Block.work
  split <;> omega

theorem Block.work_of_isLoop {block : Block} (h : block.isLoop = true) :
    block.work = 1 + block.times * (Script.work block.body + 1) := by
  obtain ⟨id, kind, params, body⟩ := block
  have hk : kind = .loop := by simpa [Block.isLoop] using h
  simp [Block.work, Block.times, hk]

/-- The steps that a list on the stack can take: the rest of this pass and its end, and
    every later pass and its end. -/
def Frame.work (frame : Frame) : Nat :=
  Script.work frame.rest + 1 + (frame.remaining - 1) * (Script.work frame.body + 1)

namespace Cursor

def work (cursor : Cursor) : Nat :=
  cursor.frames.foldr (fun frame steps => frame.work + steps) 0

theorem work_cons (frame : Frame) (below : List Frame) :
    work ⟨frame :: below⟩ = frame.work + work ⟨below⟩ := by
  simp [work]

theorem work_push_le (cursor : Cursor) (body : List Block) (times : Nat) :
    (cursor.push body times).work ≤ cursor.work + times * (Script.work body + 1) := by
  unfold push
  split
  · rename_i h
    have hpos : 0 < times := by simp at h; exact h.1
    obtain ⟨n, rfl⟩ : ∃ n, times = n + 1 := ⟨times - 1, by omega⟩
    simp only [work, List.foldr_cons, Frame.work, Nat.add_sub_cancel, Nat.succ_mul]
    omega
  · omega

theorem work_afterPass_lt (frame : Frame) (below : List Frame) (h : frame.rest = []) :
    (afterPass frame below).work < work ⟨frame :: below⟩ := by
  unfold afterPass
  split
  · rw [work_cons, Frame.work]
    omega
  · rename_i hr
    obtain ⟨n, hn⟩ : ∃ n, frame.remaining = n + 2 := ⟨frame.remaining - 2, by omega⟩
    simp only [work_cons, Frame.work, h, hn, Script.work, Nat.add_sub_cancel, Nat.zero_add,
      show n + 2 - 1 = n + 1 from rfl, Nat.succ_mul]
    omega

/-- Every step uses up work, whether it comes to an action or not. -/
theorem work_step_lt (cursor : Cursor) :
    (∀ moved, cursor.step = .moved moved → moved.work < cursor.work)
      ∧ (∀ action moved, cursor.step = .acted action moved → moved.work < cursor.work) := by
  obtain ⟨frames⟩ := cursor
  cases frames with
  | nil => simp [step]
  | cons frame below =>
    cases hrest : frame.rest with
    | nil =>
      simp only [step, hrest]
      refine ⟨fun _ h => ?_, fun _ _ h => nomatch h⟩
      cases h
      exact work_afterPass_lt frame below hrest
    | cons block rest =>
      have hpassed :
          work ⟨{ frame with rest } :: below⟩ + block.work = work ⟨frame :: below⟩ := by
        simp only [work_cons, Frame.work, hrest, Script.work]
        omega
      have hpos := block.work_pos
      simp only [step, hrest]
      cases block.action? with
      | some action =>
        refine ⟨fun _ h => (nomatch h), fun _ _ h => ?_⟩
        cases h
        omega
      | none =>
        refine ⟨fun _ h => ?_, fun _ _ h => nomatch h⟩
        cases h
        split
        · rename_i hloop
          have hpush :=
            work_push_le ⟨{ frame with rest } :: below⟩ block.body block.times
          have hwork := Block.work_of_isLoop hloop
          omega
        · omega

/-! ## Actions in order -/

/-- The next action and the cursor behind it, or no action and the empty cursor. -/
def next (cursor : Cursor) : Option Action × Cursor :=
  match _hstep : cursor.step with
  | .finished => (none, cursor)
  | .moved moved => next moved
  | .acted action moved => (some action, moved)
termination_by cursor.work
decreasing_by exact (work_step_lt cursor).1 moved _hstep

theorem work_next_lt {cursor moved : Cursor} {action : Action}
    (h : cursor.next = (some action, moved)) : moved.work < cursor.work := by
  fun_induction next cursor with
  | case1 cursor hstep => simp at h
  | case2 cursor middle hstep ih => exact Nat.lt_trans (ih h) ((work_step_lt cursor).1 _ hstep)
  | case3 cursor found after hstep =>
    obtain ⟨rfl, rfl⟩ := by simpa using h
    exact (work_step_lt cursor).2 _ _ hstep

end Cursor

end Troupe.Script
