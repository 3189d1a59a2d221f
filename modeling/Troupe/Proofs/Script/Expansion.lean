import Troupe.Script.Expansion

/-! # Loops written out

The actions of a script come from its blocks: `unroll` lists the blocks that are played,
each as often as its turn comes, and `expand` lists their actions. The test `hasActions`
decides whether that list is empty without writing it out, which is what makes it safe to
leave a loop alone.
-/

namespace Troupe.Script

/-! ## The blocks that are played -/

mutual

/-- The blocks that a block plays: itself, nothing if its kind is not known, and for a
    loop the blocks of its body once for every pass. -/
def Block.unroll : Block → List Block
  | ⟨id, kind, params, body⟩ =>
    match kind with
    | .loop => (List.replicate (params.count "times") (unroll body)).flatten
    | .unknown _ => []
    | kind => [⟨id, kind, params, body⟩]

def unroll : List Block → List Block
  | [] => []
  | block :: rest => block.unroll ++ unroll rest

end

mutual

theorem Block.map_action?_unroll : ∀ block : Block,
    block.unroll.map Block.action? = block.expand.map some
  | ⟨id, kind, params, body⟩ => by
    cases kind with
    | loop =>
      simp only [Block.unroll, Block.expand, if_true, List.map_flatten, List.map_replicate]
      rw [map_action?_unroll body]
    | unknown tag => simp [Block.unroll, Block.expand, Block.action?]
    | move | turn | goTo | say | think => rfl

/-- Every block that is played has an action, and these are the actions of the list. -/
theorem map_action?_unroll : ∀ blocks : List Block,
    (unroll blocks).map Block.action? = (expand blocks).map some
  | [] => rfl
  | block :: rest => by
    simp only [unroll, expand, List.map_append]
    rw [block.map_action?_unroll, map_action?_unroll rest]

end

/-! ## The actions of one block -/

theorem Block.expand_of_isLoop {block : Block} (isLoop : block.isLoop = true) :
    block.expand = (List.replicate block.times (Script.expand block.body)).flatten := by
  obtain ⟨id, kind, params, body⟩ := block
  have kindLoop : kind = .loop := by simpa [Block.isLoop] using isLoop
  simp [Block.expand, Block.times, kindLoop]

theorem Block.expand_of_action? {block : Block} {action : Action}
    (acts : block.action? = some action) : block.expand = [action] := by
  obtain ⟨id, kind, params, body⟩ := block
  cases kind <;> simp_all [Block.expand, Block.action?]

theorem Block.expand_of_idle {block : Block} (idle : block.action? = none)
    (notLoop : block.isLoop = false) : block.expand = [] := by
  obtain ⟨id, kind, params, body⟩ := block
  cases kind <;> simp_all [Block.expand, Block.action?, Block.isLoop]

/-! ## The test for actions -/

theorem flatten_replicate_eq_nil_iff {α : Type} (times : Nat) (items : List α) :
    (List.replicate times items).flatten = [] ↔ times = 0 ∨ items = [] := by
  cases times with
  | zero => simp
  | succ times => simp [List.flatten_eq_nil_iff, List.mem_replicate]

mutual

theorem Block.hasActions_iff : ∀ block : Block, block.hasActions = true ↔ block.expand ≠ []
  | ⟨id, kind, params, body⟩ => by
    cases kind with
    | loop =>
      simp only [Block.hasActions, Block.expand, if_true, Bool.and_eq_true, decide_eq_true_eq,
        ne_eq, flatten_replicate_eq_nil_iff, not_or]
      rw [hasActions_iff body, Nat.pos_iff_ne_zero]
    | unknown tag => simp [Block.hasActions, Block.expand, Block.action?]
    | move | turn | goTo | say | think => simp [Block.hasActions, Block.expand, Block.action?]

/-- The test looks into loops without writing them out, and still answers whether the list
    has an action. -/
theorem hasActions_iff : ∀ blocks : List Block, hasActions blocks = true ↔ expand blocks ≠ []
  | [] => by simp [hasActions, expand]
  | block :: rest => by
    simp only [hasActions, expand, Bool.or_eq_true, ne_eq, List.append_eq_nil_iff]
    rw [block.hasActions_iff, hasActions_iff rest, Classical.not_and_iff_not_or_not]

end

end Troupe.Script
