import Troupe.Proofs.Stage.Changeover

/-! # Two histories side by side

A stage is looked at after each tick, and what is seen of it is a reading of the stage. Where some
calls cannot be seen, two stages that only such calls tell apart stay alike for as long as both go
through the other calls.

* `watched` — what is seen after each tick in the course of some calls.
* `Overlooks` — which calls cannot be seen, as a relation between two stages.
* `Overlooks.watched_filter` — those calls can be left out.
-/

namespace Troupe.Stage

open Troupe.Number (Trigonometry)

variable [Trigonometry] [LawfulIdSource] {Glimpse : Type} {look : Stage → Glimpse}

def watched (look : Stage → Glimpse) (stage : Stage) : List Call → List Glimpse
  | [] => []
  | call :: rest =>
    let next := stage.after call
    if call.isTick then look next :: next.watched look rest else next.watched look rest

/-- Stages that are `alike` look the same. They stay alike when both make a call that counts, and when
    one of them makes a call that does not. -/
structure Overlooks (look : Stage → Glimpse) (counts : Call → Bool) (allowed : Call → Prop)
    (alike : Stage → Stage → Prop) : Prop where
  looks : ∀ {one other : Stage}, alike one other → look one = look other
  ticks : ∀ {call : Call}, call.isTick = true → counts call = true
  counted : ∀ {one other : Stage} {call : Call}, counts call = true → alike one other →
    alike (one.after call) (other.after call)
  ignored : ∀ {one other : Stage} {call : Call}, counts call = false → allowed call →
    alike one other → alike (one.after call) other

/-- The induction is on the calls, with the stage that the one history has come to and the one that
    the other has. -/
theorem Overlooks.watched_filter {counts : Call → Bool} {allowed : Call → Prop}
    {alike : Stage → Stage → Prop} (overlooks : Overlooks look counts allowed alike)
    {calls : List Call} (only : ∀ call ∈ calls, allowed call) {one other : Stage}
    (same : alike one other) :
    one.watched look calls = other.watched look (calls.filter counts) := by
  induction calls generalizing one other with
  | nil => rfl
  | cons call rest ih =>
    have later : ∀ call ∈ rest, allowed call := fun call member =>
      only call (List.mem_cons_of_mem _ member)
    cases counting : counts call with
    | true =>
      have next := overlooks.counted counting same
      rw [List.filter_cons_of_pos counting, watched, watched, overlooks.looks next, ih later next]
    | false =>
      have unseen : call.isTick = false := by
        cases ticking : call.isTick with
        | false => rfl
        | true => rw [overlooks.ticks ticking] at counting; cases counting
      have next := overlooks.ignored counting (only call List.mem_cons_self) same
      rw [List.filter_cons_of_neg (by simp [counting]), watched, if_neg (by simp [unseen]),
        ih later next]

end Troupe.Stage
