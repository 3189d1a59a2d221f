import Mathlib.Data.List.InsertIdx
import Troupe.Number.Angle
import Troupe.Proofs.Script.Params
import Troupe.Proofs.Script.Place
import Troupe.Proofs.Stage.Coherence

/-! # What an edit leaves alone

An edit gives one actor another script, and that is all that it does to the stage. In the script it
changes one list at one place: what is around the place stays, and so do the places of all other
blocks in it.

* `Rewrites` — a stage with another script for one actor.
* `erase_takes_one_subtree` — taking a block out takes all that it holds, and nothing else.
* `edit_changes_addressed_place` — insertions, moves and changes of parameters.
-/

namespace Troupe.Stage

open Troupe.Number (Trigonometry)
open Troupe.Script
open scoped Troupe.IdPool

section

variable [LawfulIdSource] {stage changed : Stage} {id : ActorId} {actor : Actor}

/-! ## One script -/

/-- One actor has another script, and everything else is as it was. -/
structure Rewrites (stage changed : Stage) (id : ActorId) (script : List Block) : Prop where
  rewritten : changed.actor? id = (stage.actor? id).map fun actor => { actor with script }
  others : ∀ other, other ≠ id → changed.actor? other = stage.actor? other
  listed : changed.actors.map (·.id) = stage.actors.map (·.id)
  order : changed.order = stage.order
  selected : changed.selected = stage.selected
  runs : changed.runs = stage.runs
  running : changed.running = stage.running
  animating : changed.animating = stage.animating
  encounters : changed.encounters = stage.encounters
  settings : changed.settings = stage.settings
  ids : changed.ids = stage.ids

theorem rewrites_setScript (stage : Stage) (id : ActorId) (script : List Block) :
    stage.Rewrites (stage.setScript id script) id script where
  rewritten := by
    rw [actor?_setScript]
    simp only [if_true]
  others other differs := by
    rw [actor?_setScript]
    simp only [if_neg differs, Option.map_id']
  listed := by
    refine List.map_map.trans (List.map_congr_left fun actor _ => ?_)
    simp only [Function.comp_apply]
    split <;> rfl
  order := rfl
  selected := rfl
  runs := rfl
  running := rfl
  animating := rfl
  encounters := rfl
  settings := rfl
  ids := rfl

theorem editScript_eq_ok_iff {α : Type} {edit : List Block → Except Failure α × List Block}
    {answer : α} (live : stage.actor? id = some actor) :
    stage.editScript id edit = (.ok answer, changed) ↔
      ∃ script, edit actor.script = (.ok answer, script) ∧
        changed = stage.setScript id script := by
  rw [editScript_of_actor live]
  constructor
  · intro edits
    obtain ⟨answers, rfl⟩ := Prod.mk.inj edits
    exact ⟨_, Prod.ext answers rfl, rfl⟩
  · rintro ⟨script, edits, rfl⟩
    rw [edits]

/-! ## Taking out -/

/-- Taking out finds a block whenever there is one with the identity. What is taken out is that
    block with all that it holds: the others come in the same order as before, inside of the same
    blocks. To the stage nothing else happens, and nothing at all if there is no such block, as long
    as identities are distinct. -/
theorem erase_takes_one_subtree (script : List Block) (block : BlockId) :
    (((Script.remove block script).1 = none ↔ ∀ header ∈ headers script, header.id ≠ block) ∧
      ((Script.remove block script).1 = none → (Script.remove block script).2 = script)) ∧
      (∀ removed rest, Script.remove block script = (some removed, rest) →
        removed.id = block ∧ ∃ place : Place,
          script = place.fill [removed] ∧ rest = place.fill [] ∧
          headers script = place.leading ++ headers [removed] ++ place.trailing ∧
          headers rest = place.leading ++ place.trailing ∧
          ∃ before after, lineages [] script = before ++ lineages place.above [removed] ++ after ∧
            lineages [] rest = before ++ after) ∧
      ∀ (stage : Stage) (id : ActorId) (actor : Actor),
        stage.actor? id = some actor → actor.script = script →
          ((Script.remove block script).1 = none → (stage.actors.map (·.id)).Nodup →
            stage.erase id block = (.error (.unknownBlock id block), stage)) ∧
          ∀ removed rest, Script.remove block script = (some removed, rest) →
            ∃ changed, stage.erase id block = (.ok removed, changed) ∧
              stage.Rewrites changed id rest := by
  have inVain : (Script.remove block script).1 = none →
      Script.remove block script = (none, script) :=
    fun absent => remove_of_absent (remove_fst_eq_none_iff.mp absent)
  refine ⟨⟨?_, fun absent => by rw [inVain absent]⟩, ?_, ?_⟩
  · rw [remove_fst_eq_none_iff, find?_eq_none_iff_headers]
  · intro removed rest removes
    obtain ⟨place, rfl, rfl, own⟩ := exists_place_of_remove removes
    obtain ⟨before, after, split⟩ := place.exists_lineages_fill []
    refine ⟨own, place, rfl, rfl, place.headers_fill _, ?_, before, after, ?_, ?_⟩
    · rw [place.headers_fill, headers_nil, List.append_nil]
    · rw [split, List.append_nil]
    · rw [split, lineages, List.append_nil]
  · rintro stage id actor live rfl
    constructor
    · intro absent distinct
      rw [erase, editScript_of_actor live, inVain absent, setScript_self distinct live]
    · intro removed rest removes
      refine ⟨stage.setScript id rest, ?_, rewrites_setScript stage id rest⟩
      rw [erase, editScript_of_actor live, removes]

end

/-- A loop with a loop in its body, which was copied to the end of the script and then got a
    turn. -/
def copiedLoop : Stage :=
  let inner : Block := (Block.loop 3 [] ⟨2⟩).1
  Stage.afterAll (.new .standard)
    [.add "cat", .append ⟨0, 1⟩ (Block.loop 2 [inner] ⟨1⟩).1, .append ⟨0, 1⟩ inner,
      .appendInside ⟨0, 1⟩ ⟨2⟩ (Block.turn 90 ⟨3⟩).1]

/-- Of the two loops with the identity the one without the turn is taken out. -/
theorem copiedLoop_takes_one_subtree :
    ∃ actor removed rest changed, copiedLoop.actor? ⟨0, 1⟩ = some actor ∧
      Script.remove ⟨2⟩ actor.script = (some removed, rest) ∧ removed.id = ⟨2⟩ ∧
      (∃ place : Place, actor.script = place.fill [removed] ∧ rest = place.fill []) ∧
      copiedLoop.erase ⟨0, 1⟩ ⟨2⟩ = (.ok removed, changed) ∧
      copiedLoop.Rewrites changed ⟨0, 1⟩ rest ∧ (Script.remove ⟨4⟩ actor.script).1 = none ∧
      copiedLoop.erase ⟨0, 1⟩ ⟨4⟩ = (.error (.unknownBlock ⟨0, 1⟩ ⟨4⟩), copiedLoop) := by
  have distinct : (copiedLoop.actors.map (·.id)).Nodup :=
    (coherent_of_reachable (Reachable.new.afterAll _)).distinct
  obtain ⟨actor, live, same⟩ : ∃ actor, copiedLoop.actor? ⟨0, 1⟩ = some actor ∧
    actor.script = copiedLoop.scriptOf ⟨0, 1⟩ := ⟨_, rfl, rfl⟩
  obtain ⟨removed, rest, removes⟩ : ∃ removed rest,
    Script.remove ⟨2⟩ (copiedLoop.scriptOf ⟨0, 1⟩) = (some removed, rest) := ⟨_, _, rfl⟩
  have absent : (Script.remove ⟨4⟩ (copiedLoop.scriptOf ⟨0, 1⟩)).1 = none := rfl
  rw [← same] at removes absent
  obtain ⟨_, takes, onStage⟩ := erase_takes_one_subtree actor.script ⟨2⟩
  obtain ⟨own, place, fills, leaves, _⟩ := takes removed rest removes
  obtain ⟨changed, erases, rewrites⟩ := (onStage copiedLoop _ actor live rfl).2 removed rest removes
  obtain ⟨_, _, inVain⟩ := erase_takes_one_subtree actor.script ⟨4⟩
  exact ⟨actor, removed, rest, changed, live, removes, own, ⟨place, fills, leaves⟩, erases,
    rewrites, absent, (inVain copiedLoop _ actor live rfl).1 absent distinct⟩

section

variable [LawfulIdSource] {stage changed : Stage} {id : ActorId} {actor : Actor}

/-! ## Insertions, moves and changes of parameters -/

/-- Identities being distinct, the script that an actor had can be put back. -/
theorem setScript_setScript (coherent : stage.Coherent) (live : stage.actor? id = some actor)
    (script : List Block) : (stage.setScript id script).setScript id actor.script = stage := by
  have back :
      ((stage.actors.map fun other => if other.id = id then { other with script } else other).map
        fun other => if other.id = id then { other with script := actor.script } else other) =
          stage.actors := by
    rw [List.map_map]
    refine (List.map_congr_left fun other member => ?_).trans (List.map_id _)
    by_cases own : other.id = id
    · subst own
      obtain rfl := Option.some.inj ((coherent.actor?_of_mem member).symm.trans live)
      simp only [Function.comp_apply, if_true, id_eq]
    · simp only [Function.comp_apply, if_neg own, id_eq]
  simp only [setScript, modify, back]

theorem insert_eq_ok_iff {index : Nat} {block : Block} (live : stage.actor? id = some actor) :
    stage.insert id index block = (.ok block.id, changed) ↔
      index ≤ actor.script.length ∧
        changed = stage.setScript id (actor.script.insertIdx index block) := by
  rw [insert, editScript_eq_ok_iff live, ← Nat.not_lt]
  by_cases beyond : actor.script.length < index <;> simp [beyond]

theorem append_eq_insert (block : Block) (live : stage.actor? id = some actor) :
    stage.append id block = stage.insert id actor.script.length block := by
  simp only [append, insert, editScript, live, Nat.lt_irrefl, if_false, List.insertIdx_length_self]

theorem visitBlock_eq_ok_iff {α : Type} {block : BlockId} {use : Block → Except Failure α × Block}
    {answer : α} (live : stage.actor? id = some actor) :
    stage.visitBlock id block use = (.ok answer, changed) ↔
      ∃ (place : Place) (found : Block), actor.script = place.fill [found] ∧ found.id = block ∧
        place.IsFirst block ∧ (use found).1 = .ok answer ∧
          changed = stage.setScript id (place.fill [(use found).2]) := by
  rw [visitBlock, editScript_eq_ok_iff live]
  constructor
  · rintro ⟨script, edits, rfl⟩
    cases looked : find? block actor.script with
    | none =>
      rw [visit_of_absent block use _ looked] at edits
      cases edits
    | some found =>
      obtain ⟨place, fills, own, first⟩ := find?_eq_some_iff_place.mp looked
      rw [fills, visit_fill use first own] at edits
      obtain ⟨answers, rfl⟩ := Prod.mk.inj edits
      exact ⟨place, found, fills, own, first, answers, rfl⟩
  · rintro ⟨place, found, fills, own, first, answers, rfl⟩
    exact ⟨_, by rw [fills, visit_fill use first own, ← answers], rfl⟩

/-- A new block goes to the end of the body of the loop that looking up its identity leads to. -/
theorem appendInside_eq_ok_iff {parent : BlockId} {block : Block}
    (live : stage.actor? id = some actor) :
    stage.appendInside id parent block = (.ok block.id, changed) ↔
      ∃ (place : Place) (loop : Block), actor.script = place.fill [loop] ∧ loop.id = parent ∧
        place.IsFirst parent ∧ loop.kind = .loop ∧
          changed = stage.setScript id (place.fill [{ loop with body := loop.body ++ [block] }])
      := by
  have answers (loop : Block) : (addToBody block loop).1 = .ok block.id ↔ loop.kind = .loop := by
    by_cases kind : loop.kind = .loop <;> simp [addToBody, Block.isLoop, kind]
  have adds {loop : Block} (kind : loop.kind = .loop) :
      (addToBody block loop).2 = { loop with body := loop.body ++ [block] } := by
    simp [addToBody, Block.isLoop, kind]
  simp only [appendInside, visitBlock_eq_ok_iff live, answers]
  refine exists_congr fun place => exists_congr fun loop => and_congr_right fun _ =>
    and_congr_right fun _ => and_congr_right fun _ => and_congr_right fun kind => ?_
  rw [adds kind]

theorem mergeParams_eq_ok_iff {block : BlockId} {partials : Params}
    (live : stage.actor? id = some actor) :
    stage.mergeParams id block partials = (.ok (), changed) ↔
      ∃ (place : Place) (found : Block), actor.script = place.fill [found] ∧ found.id = block ∧
        place.IsFirst block ∧
          changed = stage.setScript id (place.fill [withParams partials found]) := by
  simp only [mergeParams, visitBlock_eq_ok_iff live, true_and]

theorem moveBlock_eq_ok_iff {source target : Nat} (live : stage.actor? id = some actor) :
    stage.moveBlock id source target = (.ok (), changed) ↔
      ∃ block, actor.script[source]? = some block ∧ target < actor.script.length ∧
        changed = stage.setScript id ((actor.script.eraseIdx source).insertIdx target block) := by
  rw [moveBlock, editScript_eq_ok_iff live]
  cases present : actor.script[source]? with
  | none => simp
  | some block =>
    rw [← Nat.not_le]
    by_cases beyond : actor.script.length ≤ target <;> simp [beyond]

/-- A block that was moved can be moved back, and that undoes the move. -/
theorem moveBlock_back {block : Block} {source target : Nat} (coherent : stage.Coherent)
    (live : stage.actor? id = some actor) (present : actor.script[source]? = some block)
    (within : target < actor.script.length) :
    (stage.setScript id ((actor.script.eraseIdx source).insertIdx target block)).moveBlock id
      target source = (.ok (), stage) := by
  obtain ⟨inside, rfl⟩ := List.getElem?_eq_some_iff.mp present
  have fits : target ≤ (actor.script.eraseIdx source).length := by
    rw [List.length_eraseIdx_of_lt inside]
    omega
  have moved := (rewrites_setScript stage id
    ((actor.script.eraseIdx source).insertIdx target actor.script[source])).rewritten
  rw [live, Option.map_some] at moved
  refine (moveBlock_eq_ok_iff moved).mpr ⟨actor.script[source], ?_, ?_, ?_⟩
  · rw [List.getElem?_insertIdx_self, if_pos fits]
  · rw [List.length_insertIdx_of_le_length fits, List.length_eraseIdx_of_lt inside]
    omega
  · rw [List.eraseIdx_insertIdx_self, List.insertIdx_eraseIdx_getElem inside]
    exact (setScript_setScript coherent live _).symm

/-- An edit that is carried out changes the script of its addressee at one place. A block that is
    inserted or moved is where it was to be, and the others are in the order that they had; a block
    that is looked up is the first one with the identity, and either its body gets one more block
    at the end, or the parameters that are given replace its own. -/
theorem edit_changes_addressed_place [Trigonometry] {settings : Settings}
    (reachable : Reachable settings stage) (live : stage.actor? id = some actor) :
    (∀ index block,
      ((∃ changed, stage.insert id index block = (.ok block.id, changed)) ↔
        index ≤ actor.script.length) ∧
      ∀ changed, stage.insert id index block = (.ok block.id, changed) →
        ∃ script, stage.Rewrites changed id script ∧ script[index]? = some block ∧
          script.eraseIdx index = actor.script) ∧
    (∀ block, stage.append id block = stage.insert id actor.script.length block) ∧
    (∀ parent block,
      ((∃ changed, stage.appendInside id parent block = (.ok block.id, changed)) ↔
        ∃ loop, find? parent actor.script = some loop ∧ loop.kind = .loop) ∧
      ∀ changed, stage.appendInside id parent block = (.ok block.id, changed) →
        ∃ (place : Place) (loop : Block), actor.script = place.fill [loop] ∧ loop.id = parent ∧
          place.IsFirst parent ∧
            stage.Rewrites changed id (place.fill [{ loop with body := loop.body ++ [block] }])) ∧
    (∀ block partials,
      ((∃ changed, stage.mergeParams id block partials = (.ok (), changed)) ↔
        ∃ found, find? block actor.script = some found) ∧
      ∀ changed, stage.mergeParams id block partials = (.ok (), changed) →
        ∃ (place : Place) (found : Block) (params : Params),
          actor.script = place.fill [found] ∧ found.id = block ∧ place.IsFirst block ∧
            (∀ name, params.get? name = (partials.get? name).or (found.params.get? name)) ∧
              stage.Rewrites changed id (place.fill [{ found with params }])) ∧
    ∀ source target,
      ((∃ changed, stage.moveBlock id source target = (.ok (), changed)) ↔
        source < actor.script.length ∧ target < actor.script.length) ∧
      ∀ changed, stage.moveBlock id source target = (.ok (), changed) →
        ∃ script, stage.Rewrites changed id script ∧ script[target]? = actor.script[source]? ∧
          script.eraseIdx target = actor.script.eraseIdx source ∧
            changed.moveBlock id target source = (.ok (), stage) := by
  refine ⟨fun index block => ⟨?_, ?_⟩, fun block => append_eq_insert block live,
    fun parent block => ⟨?_, ?_⟩, fun block partials => ⟨?_, ?_⟩, fun source target => ⟨?_, ?_⟩⟩
  -- insertions
  · simp [insert_eq_ok_iff live]
  · intro changed inserts
    obtain ⟨within, rfl⟩ := (insert_eq_ok_iff live).mp inserts
    refine ⟨_, rewrites_setScript stage id _, ?_, List.eraseIdx_insertIdx_self _⟩
    rw [List.getElem?_insertIdx_self, if_pos within]
  -- blocks that go inside a loop
  · simp only [appendInside_eq_ok_iff live, find?_eq_some_iff_place]
    constructor
    · rintro ⟨_, place, loop, fills, own, first, kind, _⟩
      exact ⟨loop, ⟨place, fills, own, first⟩, kind⟩
    · rintro ⟨loop, ⟨place, fills, own, first⟩, kind⟩
      exact ⟨_, place, loop, fills, own, first, kind, rfl⟩
  · intro changed appends
    obtain ⟨place, loop, fills, own, first, _, rfl⟩ := (appendInside_eq_ok_iff live).mp appends
    exact ⟨place, loop, fills, own, first, rewrites_setScript stage id _⟩
  -- parameters
  · simp only [mergeParams_eq_ok_iff live, find?_eq_some_iff_place]
    constructor
    · rintro ⟨_, place, found, fills, own, first, _⟩
      exact ⟨found, place, fills, own, first⟩
    · rintro ⟨found, place, fills, own, first⟩
      exact ⟨_, place, found, fills, own, first, rfl⟩
  · intro changed merges
    obtain ⟨place, found, fills, own, first, rfl⟩ := (mergeParams_eq_ok_iff live).mp merges
    exact ⟨place, found, found.params.merge partials, fills, own, first,
      fun name => Params.get?_merge, rewrites_setScript stage id _⟩
  -- moves
  · simp only [moveBlock_eq_ok_iff live]
    constructor
    · rintro ⟨_, block, present, within, _⟩
      obtain ⟨inside, _⟩ := List.getElem?_eq_some_iff.mp present
      exact ⟨inside, within⟩
    · rintro ⟨inside, within⟩
      exact ⟨_, _, List.getElem?_eq_getElem inside, within, rfl⟩
  · intro changed moves
    obtain ⟨block, present, within, rfl⟩ := (moveBlock_eq_ok_iff live).mp moves
    obtain ⟨inside, _⟩ := List.getElem?_eq_some_iff.mp present
    refine ⟨_, rewrites_setScript stage id _, ?_, List.eraseIdx_insertIdx_self _,
      moveBlock_back (coherent_of_reachable reachable) live present within⟩
    rw [present, List.getElem?_insertIdx_self, if_pos]
    rw [List.length_eraseIdx_of_lt inside]
    omega

end

/-- The loop that came first gets another turn and another count, and the two blocks of the script
    change places and back again. -/
theorem copiedLoop_changes_addressed_place :
    let turn : Block := (Block.turn 45 ⟨4⟩).1
    let twice : Params := Params.empty.set "times" (.ofInt 2)
    ∃ actor, Reachable .standard copiedLoop ∧ copiedLoop.actor? ⟨0, 1⟩ = some actor ∧
      (∃ changed script, copiedLoop.insert ⟨0, 1⟩ 1 turn = (.ok ⟨4⟩, changed) ∧
        copiedLoop.Rewrites changed ⟨0, 1⟩ script ∧ script[1]? = some turn ∧
          script.eraseIdx 1 = actor.script) ∧
      (∃ changed place loop, copiedLoop.appendInside ⟨0, 1⟩ ⟨2⟩ turn = (.ok ⟨4⟩, changed) ∧
        actor.script = Place.fill place [loop] ∧ loop.id = ⟨2⟩ ∧ place.IsFirst ⟨2⟩ ∧
          copiedLoop.Rewrites changed ⟨0, 1⟩
            (place.fill [{ loop with body := loop.body ++ [turn] }])) ∧
      (∃ changed place found params, copiedLoop.mergeParams ⟨0, 1⟩ ⟨2⟩ twice = (.ok (), changed) ∧
        actor.script = Place.fill place [found] ∧ place.IsFirst ⟨2⟩ ∧
          (∀ name, params.get? name = (twice.get? name).or (found.params.get? name)) ∧
            copiedLoop.Rewrites changed ⟨0, 1⟩ (place.fill [{ found with params }])) ∧
      ∃ changed, copiedLoop.moveBlock ⟨0, 1⟩ 0 1 = (.ok (), changed) ∧
        changed.moveBlock ⟨0, 1⟩ 1 0 = (.ok (), copiedLoop) := by
  intro turn twice
  have reachable : Reachable .standard copiedLoop := Reachable.new.afterAll _
  obtain ⟨actor, live, same⟩ : ∃ actor, copiedLoop.actor? ⟨0, 1⟩ = some actor ∧
    actor.script = copiedLoop.scriptOf ⟨0, 1⟩ := ⟨_, rfl, rfl⟩
  have long : actor.script.length = 2 := same ▸ rfl
  obtain ⟨loop, found, kind⟩ : ∃ loop, find? ⟨2⟩ (copiedLoop.scriptOf ⟨0, 1⟩) = some loop ∧
    loop.kind = .loop := ⟨_, rfl, rfl⟩
  rw [← same] at found
  obtain ⟨inserts, _, appends, merges, moves⟩ := edit_changes_addressed_place reachable live
  obtain ⟨inserted, insert⟩ := (inserts 1 turn).1.mpr (by omega)
  obtain ⟨appended, append⟩ := (appends ⟨2⟩ turn).1.mpr ⟨loop, found, kind⟩
  obtain ⟨merged, merge⟩ := (merges ⟨2⟩ twice).1.mpr ⟨loop, found⟩
  obtain ⟨moved, move⟩ := (moves 0 1).1.mpr (by omega)
  obtain ⟨script, rewrites, there, others⟩ := (inserts 1 turn).2 inserted insert
  obtain ⟨place, held, fills, own, first, holds⟩ := (appends ⟨2⟩ turn).2 appended append
  obtain ⟨spot, named, params, fillsSpot, _, foremost, reads, updates⟩ :=
    (merges ⟨2⟩ twice).2 merged merge
  obtain ⟨_, _, _, _, back⟩ := (moves 0 1).2 moved move
  exact ⟨actor, reachable, live, ⟨inserted, script, insert, rewrites, there, others⟩,
    ⟨appended, place, held, append, fills, own, first, holds⟩,
    ⟨merged, spot, named, params, merge, fillsSpot, foremost, reads, updates⟩, moved, move, back⟩

end Troupe.Stage
