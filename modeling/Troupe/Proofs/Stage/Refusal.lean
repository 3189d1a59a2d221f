import Troupe.Proofs.Script.Place
import Troupe.Proofs.Stage.InProgress

/-! # Which calls are refused

A call is refused for a reason that can be told from the stage and the call alone, and there is one
reason at most: whoever is addressed must be there before anything else counts. A refused call
leaves the stage as it was: an edit writes the script back that it was given, and no other actor has
the same identity.

* `Call.wanted?` — the block that a call looks for in the script of its addressee.
* `Refusal` — the reasons.
* `call_of_refusal`, `refusal_of_call` — for a reason there is, and for no other.
* `call_refused_iff` — every call is refused for these reasons, and leaves no trace.
-/

namespace Troupe.Stage

open Troupe.Number (Trigonometry)
open Troupe.Script
open scoped Troupe.IdPool

section

variable [LawfulIdSource] {stage : Stage} {call : Call} {id : ActorId} {actor : Actor}
  {failure : Failure}

/-! ## What a call asks for -/

/-- The block that a call looks for in the script of its addressee. -/
def Call.wanted? : Call → Option BlockId
  | .appendInside _ parent _ => some parent
  | .erase _ block | .mergeParams _ block _ => some block
  | _ => none

theorem actor?_eq_none_iff : stage.actor? id = none ↔ id ∉ stage.actors.map (·.id) :=
  find?_eq_none_iff

/-! ## Reasons -/

/-- Why a call is refused on a stage. -/
inductive Refusal (stage : Stage) : Call → Failure → Prop
  | unknownTemplate {name : String}
      (unlisted : ∀ template ∈ stage.settings.templates, template.id ≠ name) :
      Refusal stage (.add name) (.unknownTemplate name)
  | unknownActor {call : Call} {id : ActorId} (addressed : call.addressee? = some id)
      (absent : id ∉ stage.actors.map (·.id)) : Refusal stage call (.unknownActor id)
  | unknownBlock {call : Call} {id : ActorId} {block : BlockId} {actor : Actor}
      (addressed : call.addressee? = some id) (wanted : call.wanted? = some block)
      (live : stage.actor? id = some actor) (absent : find? block actor.script = none) :
      Refusal stage call (.unknownBlock id block)
  -- Of several blocks with an identity the first counts, every block coming before its body.
  | notALoop {id : ActorId} {parent : BlockId} {block found : Block} {actor : Actor}
      (live : stage.actor? id = some actor)
      (first : (preorder actor.script).find? (·.id = parent) = some found)
      (other : found.kind ≠ .loop) :
      Refusal stage (.appendInside id parent block) (.notALoop parent)
  | beyondEnd {id : ActorId} {index : Nat} {block : Block} {actor : Actor}
      (live : stage.actor? id = some actor) (beyond : actor.script.length < index) :
      Refusal stage (.insert id index block) (.indexOutOfRange index actor.script.length)
  | noSource {id : ActorId} {source target : Nat} {actor : Actor}
      (live : stage.actor? id = some actor) (beyond : actor.script.length ≤ source) :
      Refusal stage (.moveBlock id source target) (.indexOutOfRange source actor.script.length)
  | noTarget {id : ActorId} {source target : Nat} {actor : Actor}
      (live : stage.actor? id = some actor) (within : source < actor.script.length)
      (beyond : actor.script.length ≤ target) :
      Refusal stage (.moveBlock id source target) (.indexOutOfRange target actor.script.length)
  | runInProgress (running : stage.running = true) : Refusal stage .reset .runInProgress

/-! ## Refused edits -/

section

variable {α : Type} {block : BlockId} {found : Block}

theorem visitBlock_answer (live : stage.actor? id = some actor)
    (use : Block → Except Failure α × Block) :
    (stage.visitBlock id block use).1 =
      match find? block actor.script with
      | some found => (use found).1
      | none => .error (.unknownBlock id block) := by
  have answers : (visit block use actor.script).1 =
      (find? block actor.script).map fun found => (use found).1 := visit_answer use _
  rw [visitBlock, editScript_of_actor live]
  generalize visit block use actor.script = result at answers
  obtain ⟨answer, script⟩ := result
  cases looked : find? block actor.script <;> rw [looked] at answers <;> cases answers <;> rfl

variable (distinct : (stage.actors.map (·.id)).Nodup) (live : stage.actor? id = some actor)
include distinct live

theorem editScript_of_refused {edit : List Block → Except Failure α × List Block}
    (refuses : edit actor.script = (.error failure, actor.script)) :
    stage.editScript id edit = (.error failure, stage) := by
  rw [editScript_of_actor live, refuses, setScript_self distinct live]

theorem visitBlock_of_absent (absent : find? block actor.script = none)
    (use : Block → Except Failure α × Block) :
    stage.visitBlock id block use = (.error (.unknownBlock id block), stage) :=
  editScript_of_refused distinct live (by rw [visit_of_absent block use _ absent])

theorem visitBlock_of_refused (there : find? block actor.script = some found)
    {use : Block → Except Failure α × Block} (refuses : use found = (.error failure, found)) :
    stage.visitBlock id block use = (.error failure, stage) := by
  refine editScript_of_refused distinct live ?_
  rw [visit_of_found there (by rw [refuses]), refuses]

end

/-! ## Refused calls -/

variable [Trigonometry]

theorem call_of_absent (addressed : call.addressee? = some id) (absent : stage.actor? id = none) :
    stage.call call = (.error (.unknownActor id), stage) := by
  cases call with
  | remove | select | drag | append | insert | appendInside | erase | moveBlock | mergeParams =>
    cases addressed
    simp only [Stage.call, remove, select, drag, append, insert, appendInside, erase, moveBlock,
      mergeParams, visitBlock, editScript, absent, withoutAnswer, Except.map]
  | add | resize | reset | choose | start | tick => cases addressed

theorem call_of_refusal (distinct : (stage.actors.map (·.id)).Nodup)
    (refusal : Refusal stage call failure) : stage.call call = (.error failure, stage) := by
  cases refusal with
  | @unknownTemplate name unlisted =>
    have unknown : stage.settings.template? name = none := by
      simpa [Settings.template?, List.find?_eq_none] using unlisted
    simp only [Stage.call, add, unknown, withoutAnswer, Except.map]
  | unknownActor addressed absent => exact call_of_absent addressed (actor?_eq_none_iff.mpr absent)
  | unknownBlock addressed wanted live absent =>
    cases call with
    | appendInside =>
      cases addressed
      cases wanted
      rw [Stage.call, appendInside, visitBlock_of_absent distinct live absent]
      rfl
    | erase =>
      cases addressed
      cases wanted
      rw [Stage.call, erase, editScript_of_refused distinct live (by rw [remove_of_absent absent])]
      rfl
    | mergeParams =>
      cases addressed
      cases wanted
      rw [Stage.call, mergeParams, visitBlock_of_absent distinct live absent]
    | add | remove | select | drag | resize | reset | append | insert | moveBlock | choose | start
    | tick => cases wanted
  | @notALoop _ parent block found _ live first other =>
    rw [← find?_eq_find?_preorder] at first
    have refuses : addToBody block found = (.error (.notALoop parent), found) := by
      simp [addToBody, Block.isLoop, other, id_of_find? first]
    rw [Stage.call, appendInside, visitBlock_of_refused distinct live first refuses]
    rfl
  | beyondEnd live beyond =>
    rw [Stage.call, insert, editScript_of_refused distinct live (by rw [if_pos beyond])]
    rfl
  | noSource live beyond =>
    rw [Stage.call, moveBlock, editScript_of_refused distinct live]
    simp only [List.getElem?_eq_none beyond]
  | noTarget live within beyond =>
    rw [Stage.call, moveBlock, editScript_of_refused distinct live]
    simp only [List.getElem?_eq_getElem within, if_pos beyond]
  | runInProgress running => simp only [Stage.call, reset, running, if_true]

/-- The cases are the calls, and for an edit those of what it looks at in the script. -/
theorem refusal_of_live (addressed : call.addressee? = some id)
    (live : stage.actor? id = some actor) (refused : (stage.call call).1 = .error failure) :
    Refusal stage call failure := by
  cases call with
  | remove | select | drag =>
    cases addressed
    simp only [Stage.call, remove, select, drag, live, withoutAnswer, Except.map] at refused
    cases refused
  | append =>
    cases addressed
    rw [Stage.call, append, editScript_of_actor live] at refused
    cases refused
  | insert =>
    cases addressed
    rw [Stage.call, insert, editScript_of_actor live] at refused
    split at refused
    case isTrue beyond =>
      cases refused
      exact .beyondEnd live beyond
    case isFalse => cases refused
  | appendInside =>
    cases addressed
    rw [Stage.call, appendInside, withoutAnswer, visitBlock_answer live] at refused
    split at refused
    case h_1 found first =>
      by_cases loop : found.isLoop = true
      · rw [addToBody, if_pos loop] at refused
        cases refused
      · rw [addToBody, if_neg loop, id_of_find? first] at refused
        cases refused
        rw [find?_eq_find?_preorder] at first
        exact .notALoop live first (by simpa [Block.isLoop] using loop)
    case h_2 absent =>
      cases refused
      exact .unknownBlock rfl rfl live absent
  | erase _ block =>
    cases addressed
    rw [Stage.call, erase, editScript_of_actor live] at refused
    split at refused
    case h_1 => cases refused
    case h_2 vain =>
      cases refused
      exact .unknownBlock rfl rfl live (remove_fst_eq_none_iff.mp (congrArg Prod.fst vain))
  | moveBlock =>
    cases addressed
    rw [Stage.call, moveBlock, editScript_of_actor live] at refused
    split at refused
    case h_1 absent =>
      cases refused
      exact .noSource live (List.getElem?_eq_none_iff.mp absent)
    case h_2 block present =>
      split at refused
      case isTrue beyond =>
        cases refused
        obtain ⟨within, _⟩ := List.getElem?_eq_some_iff.mp present
        exact .noTarget live within beyond
      case isFalse => cases refused
  | mergeParams =>
    cases addressed
    rw [Stage.call, mergeParams, visitBlock_answer live] at refused
    split at refused
    case h_1 => cases refused
    case h_2 absent =>
      cases refused
      exact .unknownBlock rfl rfl live absent
  | add | resize | reset | choose | start | tick => cases addressed

/-- A call that is addressed to nobody is refused because of its own argument or of a performance in
    progress; any other one, first of all, because its addressee is missing. -/
theorem refusal_of_call (refused : (stage.call call).1 = .error failure) :
    Refusal stage call failure := by
  cases addressed : call.addressee? with
  | some id =>
    cases live : stage.actor? id with
    | none =>
      rw [call_of_absent addressed live] at refused
      cases refused
      exact .unknownActor addressed (actor?_eq_none_iff.mp live)
    | some actor => exact refusal_of_live addressed live refused
  | none =>
    cases call with
    | add name =>
      cases known : stage.settings.template? name with
      | none =>
        simp only [Stage.call, add, known, withoutAnswer, Except.map] at refused
        cases refused
        exact .unknownTemplate (by simpa [Settings.template?, List.find?_eq_none] using known)
      | some template =>
        simp only [Stage.call, add, known, withoutAnswer, Except.map] at refused
        cases refused
    | reset =>
      cases running : stage.running with
      | true =>
        rw [Stage.call, (reset_refused_iff stage).mpr running] at refused
        cases refused
        exact .runInProgress running
      | false =>
        simp only [Stage.call, reset, running, Bool.false_eq_true, if_false] at refused
        cases refused
    | resize | choose | start | tick => cases refused
    | remove | select | drag | append | insert | appendInside | erase | moveBlock | mergeParams =>
      cases addressed

theorem call_eq_error_iff (distinct : (stage.actors.map (·.id)).Nodup) :
    (stage.call call).1 = .error failure ↔ Refusal stage call failure :=
  ⟨refusal_of_call, fun refusal => by rw [call_of_refusal distinct refusal]⟩

theorem start_idle_iff (stage : Stage) (now : Nat) :
    (stage.start now).1 = .nothingToRun ↔
      stage.running = false ∧ ∀ actor ∈ stage.roster, actor.script = [] := by
  have nobody : stage.cast = [] ↔ ∀ actor ∈ stage.roster, actor.script = [] := by
    simp [cast, List.filter_eq_nil_iff, Actor.isScripted]
  rw [← nobody]
  rcases start_cases stage now with ⟨running, result⟩ | ⟨idle, empty, result⟩ |
    ⟨idle, scripted, result⟩
  · simp [running, result]
  · simp [idle, empty, result]
  · simp [scripted, result]

/-- Calls are refused for the reasons listed and for no other, and whatever there is no reason to
    refuse is carried out. A refused call leaves everything as it was; and so does the start of a
    performance while one is in progress, or while nobody has a script. -/
theorem call_refused_iff {settings : Settings} {stage : Stage}
    (reachable : Reachable settings stage) (call : Call) :
    (∀ failure, (stage.call call).1 = .error failure ↔ Refusal stage call failure) ∧
      ((stage.call call).1 = .ok () ↔ ∀ failure, ¬ Refusal stage call failure) ∧
      (∀ failure, (stage.call call).1 = .error failure → (stage.call call).2 = stage) ∧
      ∀ now,
        ((stage.start now).1 = .alreadyRunning ↔ stage.running = true) ∧
        ((stage.start now).1 = .nothingToRun ↔
          stage.running = false ∧ ∀ actor ∈ stage.roster, actor.script = []) ∧
        ((stage.start now).1 = .alreadyRunning ∨ (stage.start now).1 = .nothingToRun →
          (stage.start now).2 = stage) := by
  have distinct := (coherent_of_reachable reachable).distinct
  refine ⟨fun _ => call_eq_error_iff distinct, ?_, ?_, fun now => ⟨start_refused_iff stage now,
    start_idle_iff stage now, ?_⟩⟩
  · simp only [← call_eq_error_iff distinct]
    cases (stage.call call).1 <;> simp
  · intro failure refused
    rw [call_of_refusal distinct (refusal_of_call refused)]
  · rcases start_cases stage now with ⟨_, result⟩ | ⟨_, _, result⟩ | ⟨_, _, result⟩ <;>
      simp [result]

end

/-- Somebody who performs a loop with a message in it. -/
def patientPerformer : Stage :=
  Stage.afterAll (.new .standard)
    [.add "cat", .append ⟨0, 1⟩ (Block.loop 3 [(Block.say "hi" 1 ⟨1⟩).1] ⟨0⟩).1, .start 0]

/-- The message is found in the loop, and takes no blocks. -/
theorem patientPerformer_keeps :
    let call := Call.appendInside ⟨0, 1⟩ ⟨1⟩ (Block.move 100 ⟨2⟩).1
    Reachable .standard patientPerformer ∧
      (patientPerformer.call call).1 = .error (.notALoop ⟨1⟩) ∧
      (patientPerformer.call call).2 = patientPerformer := by
  intro call
  have reachable : Reachable .standard patientPerformer := Reachable.new.afterAll _
  have refused : (patientPerformer.call call).1 = .error (.notALoop ⟨1⟩) := by decide +kernel
  exact ⟨reachable, refused, (call_refused_iff reachable call).2.2.1 _ refused⟩

end Troupe.Stage
