import Troupe.Number.Angle
import Troupe.Proofs.Stage.Coherence

/-! # Who is on the stage

An actor is on the stage from the call that makes it to the call that removes it. The stage keeps
the actors and, apart from them, the order in which they were made; the two agree after every
history. No identity is handed out twice, as long as the source of identities hands out new ones.

* `created`, `dismissed` — the identities that calls hand out and take out of use.
* `Registered`, `Registered.afterAll` — the order of creation, and the identities in use.
* `Tidy`, `Tidy.afterAll` — the selection, and what is left when nothing is in progress.
* `registry_coherent` — both, for every history.
-/

namespace Troupe.Stage

open Troupe.Number (Trigonometry)
open scoped Troupe.IdPool

section

variable [LawfulIdSource] {stage changed : Stage} {call : Call} {id : ActorId}
  {made gone : List ActorId}

/-! ## Coming and going -/

/-- The identity that a call hands out, if it makes an actor. -/
def handedOut? (stage : Stage) : Call → Option ActorId
  | .add template => (stage.add template).1.toOption
  | _ => none

/-- The identity that a call takes out of use, if it removes an actor. -/
def takenBack? (stage : Stage) : Call → Option ActorId
  | .remove id => (stage.remove id).1.toOption.map fun _ => id
  | _ => none

theorem exists_actor_iff :
    (∃ actor, stage.actor id = .ok actor) ↔ id ∈ stage.actors.map (·.id) := by
  cases shows : stage.actor? id with
  | none => simp [Stage.actor, shows, find?_eq_none_iff.mp shows]
  | some actor =>
    have present := List.mem_map_of_mem (f := Actor.id) (List.mem_of_find?_eq_some shows)
    rw [id_of_actor? shows] at present
    simp [Stage.actor, shows, present]

section Calls

variable [Trigonometry]

/-- What is read off the calls of a history, each at the stage that it is made on. -/
def gathered (read : Stage → Call → Option ActorId) (stage : Stage) : List Call → List ActorId
  | [] => []
  | call :: rest => (read stage call).toList ++ gathered read (stage.after call) rest

def created (stage : Stage) (calls : List Call) : List ActorId :=
  stage.gathered handedOut? calls

def dismissed (stage : Stage) (calls : List Call) : List ActorId :=
  stage.gathered takenBack? calls

theorem after_add {name : String} {template : Template}
    (known : stage.settings.template? name = some template) :
    stage.handedOut? (.add name) = some (IdSource.take stage.ids).1 ∧
      stage.after (.add name) =
        { stage with
          actors := stage.actors ++ [stage.newcomer template]
          order := stage.order ++ [(IdSource.take stage.ids).1]
          ids := (IdSource.take stage.ids).2
          selected := some (IdSource.take stage.ids).1 } := by
  simp only [handedOut?, after, Stage.call, withoutAnswer, add, known, newcomer, Except.toOption,
    and_self]

theorem after_add_of_unknown {name : String} (unknown : stage.settings.template? name = none) :
    stage.handedOut? (.add name) = none ∧ stage.after (.add name) = stage := by
  simp only [handedOut?, after, Stage.call, withoutAnswer, add, unknown, Except.toOption, and_self]

theorem after_remove {actor : Actor} (live : stage.actor? id = some actor) :
    stage.takenBack? (.remove id) = some id ∧
      stage.after (.remove id) =
        { stage with
          actors := stage.actors.filter (·.id != id)
          order := stage.order.filter (· != id)
          ids := IdSource.giveBack stage.ids id
          runs := stage.runs.filter (·.actor != id)
          selected :=
            if stage.selected = some id then (stage.order.filter (· != id)).head?
            else stage.selected } := by
  simp only [takenBack?, after, Stage.call, remove, live, Except.toOption, Option.map_some,
    and_self]

theorem after_remove_of_absent (absent : stage.actor? id = none) :
    stage.takenBack? (.remove id) = none ∧ stage.after (.remove id) = stage := by
  simp only [takenBack?, after, Stage.call, remove, absent, Except.toOption, Option.map_none,
    and_self]

theorem tick_listed (stage : Stage) (now : Nat) :
    (stage.tick now).order = stage.order ∧ (stage.tick now).ids = stage.ids ∧
      (stage.tick now).selected = stage.selected := by
  cases running : stage.running with
  | false => simp only [tick_of_idle running, and_self]
  | true =>
    rw [tick_of_running running]
    rcases conclude_cases (stage.advance now).meet with ⟨_, concludes⟩ | ⟨_, concludes⟩ <;>
      rw [concludes, meet_eq] <;> exact ⟨rfl, rfl, rfl⟩

/-- Only two kinds of calls change who is on the stage. -/
theorem Outcome.listed (outcome : Outcome stage call changed)
    (stays : ∀ template, call ≠ .add template) (remains : ∀ id, call ≠ .remove id) :
    changed.order = stage.order ∧ changed.ids = stage.ids := by
  cases outcome with
  | refused | selected | chosen | dragged | edited | resized | sentHome => exact ⟨rfl, rfl⟩
  | added => exact absurd rfl (stays _)
  | removed => exact absurd rfl (remains _)
  | started => exact ⟨(tick_listed _ _).1, (tick_listed _ _).2.1⟩
  | ticked => exact ⟨(tick_listed _ _).1, (tick_listed _ _).2.1⟩

end Calls

/-! ## Identities -/

/-- What a stage has of the identities that were handed out, and of those of them that were
    taken out of use: the others, in the order in which they were handed out. -/
structure Registered (made gone : List ActorId) (stage : Stage) : Prop where
  coherent : stage.Coherent
  issued : IdSource.Issued made stage.order stage.ids
  listed : stage.order = made.filter (· ∉ gone)
  goneOnce : gone.Nodup
  known : ∀ id ∈ gone, id ∈ made

namespace Registered

theorem mem_iff (registered : Registered made gone stage) :
    id ∈ stage.actors.map (·.id) ↔ id ∈ made ∧ id ∉ gone := by
  rw [← registered.coherent.listed, registered.listed]
  simp

theorem of_frame (registered : Registered made gone stage) (coherent : changed.Coherent)
    (frame : changed.order = stage.order ∧ changed.ids = stage.ids) :
    Registered made gone changed := by
  obtain ⟨_, issued, listed, goneOnce, known⟩ := registered
  obtain ⟨sameOrder, samePool⟩ := frame
  rw [← sameOrder] at issued listed
  rw [← samePool] at issued
  exact ⟨coherent, issued, listed, goneOnce, known⟩

theorem added (registered : Registered made gone stage) (template : Template) :
    Registered (made ++ [(IdSource.take stage.ids).1]) gone { stage with
      actors := stage.actors ++ [stage.newcomer template]
      order := stage.order ++ [(IdSource.take stage.ids).1]
      ids := (IdSource.take stage.ids).2
      selected := some (IdSource.take stage.ids).1 } := by
  have isKept : (IdSource.take stage.ids).1 ∉ gone := fun member =>
    LawfulIdSource.fresh registered.issued (registered.known _ member)
  exact {
    coherent := registered.coherent.added template
    issued := registered.issued.taken
    listed := by simp [registered.listed, isKept]
    goneOnce := registered.goneOnce
    known := fun id member => List.mem_append_left _ (registered.known id member) }

theorem removed (registered : Registered made gone stage) {actor : Actor}
    {selected : Option ActorId} (live : stage.actor? id = some actor) :
    Registered made (gone ++ [id]) { stage with
      actors := stage.actors.filter (·.id != id)
      order := stage.order.filter (· != id)
      ids := IdSource.giveBack stage.ids id
      runs := stage.runs.filter (·.actor != id)
      selected } := by
  have present : id ∈ stage.actors.map (·.id) :=
    List.mem_map.mpr ⟨actor, List.mem_of_find?_eq_some live, id_of_actor? live⟩
  obtain ⟨wasMade, wasThere⟩ := registered.mem_iff.mp present
  refine {
    coherent := registered.coherent.removed live
    issued := registered.issued.givenBack (registered.coherent.listed ▸ present)
    listed := ?listed
    goneOnce := ?goneOnce
    known := List.forall_mem_append.mpr
      ⟨registered.known, List.forall_mem_singleton.mpr wasMade⟩ }
  case listed =>
    rw [registered.listed, List.filter_filter]
    refine List.filter_congr fun other _ => ?_
    by_cases same : other = id <;> simp [same]
  case goneOnce =>
    refine List.nodup_append.mpr ⟨registered.goneOnce, List.nodup_singleton _, ?_⟩
    rintro old member _ isLast rfl
    exact wasThere (List.mem_singleton.mp isLast ▸ member)

end Registered

theorem registered_new (settings : Settings) : Registered [] [] (Stage.new settings) where
  coherent := coherent_new settings
  issued := .nobody
  listed := rfl
  goneOnce := .nil
  known := nofun

section Calls

variable [Trigonometry]

theorem Registered.after (registered : Registered made gone stage) (call : Call) :
    Registered (made ++ (stage.handedOut? call).toList) (gone ++ (stage.takenBack? call).toList)
      (stage.after call) := by
  have outcome := outcome_after stage call
  have coherent := registered.coherent.outcome outcome
  cases call with
  | add name =>
    simp only [takenBack?, Option.toList_none, List.append_nil]
    cases known : stage.settings.template? name with
    | none =>
      obtain ⟨nobody, same⟩ := after_add_of_unknown known
      rwa [nobody, same, Option.toList_none, List.append_nil]
    | some template =>
      obtain ⟨somebody, adds⟩ := after_add known
      rw [somebody, adds]
      exact registered.added template
  | remove id =>
    simp only [handedOut?, Option.toList_none, List.append_nil]
    cases live : stage.actor? id with
    | none =>
      obtain ⟨nobody, same⟩ := after_remove_of_absent live
      rwa [nobody, same, Option.toList_none, List.append_nil]
    | some actor =>
      obtain ⟨somebody, removes⟩ := after_remove live
      rw [somebody, removes]
      exact registered.removed live
  | select | drag | resize | reset | append | insert | appendInside | erase | moveBlock
  | mergeParams | choose | start | tick =>
    simp only [handedOut?, takenBack?, Option.toList_none, List.append_nil]
    exact registered.of_frame coherent (outcome.listed (fun _ => nofun) fun _ => nofun)

/-- The induction is on the calls, with the identities that came before. -/
theorem Registered.afterAll (registered : Registered made gone stage) (calls : List Call) :
    Registered (made ++ stage.created calls) (gone ++ stage.dismissed calls)
      (stage.afterAll calls) := by
  induction calls generalizing stage made gone with
  | nil =>
    rw [show stage.created [] = [] from rfl, show stage.dismissed [] = [] from rfl,
      List.append_nil, List.append_nil]
    exact registered
  | cons call rest ih =>
    have later := ih (registered.after call)
    rwa [List.append_assoc, List.append_assoc] at later

theorem exists_registered {settings : Settings} (reachable : Reachable settings stage) :
    ∃ made gone, Registered made gone stage := by
  induction reachable with
  | new => exact ⟨[], [], registered_new settings⟩
  | after call _ ih =>
    obtain ⟨_, _, registered⟩ := ih
    exact ⟨_, _, registered.after call⟩

end Calls

/-! ## Selection and performance -/

/-- The selection is of somebody, if there is anybody, and nothing is left of a performance that
    is over. -/
structure Tidy (stage : Stage) : Prop where
  selection : match stage.selected with
    | none => stage.order = []
    | some id => id ∈ stage.order
  animates : stage.animating = stage.running
  forgets : stage.running = false → stage.encounters.ongoing = []

theorem tidy_new (settings : Settings) : (Stage.new settings).Tidy where
  selection := rfl
  animates := rfl
  forgets _ := rfl

namespace Tidy

theorem of_frame (tidy : stage.Tidy) (sameOrder : changed.order = stage.order)
    (sameSelection : changed.selected = stage.selected)
    (animates : changed.animating = changed.running)
    (forgets : changed.running = false → changed.encounters.ongoing = []) : changed.Tidy := by
  refine ⟨?_, animates, forgets⟩
  rw [sameOrder, sameSelection]
  exact tidy.selection

variable [Trigonometry]

theorem ticked (tidy : stage.Tidy) (now : Nat) : (stage.tick now).Tidy := by
  cases running : stage.running with
  | false => rwa [tick_of_idle running]
  | true =>
    have goesOn := status_meet_advance stage now
    have status : (stage.tick now).animating = (stage.tick now).running ∧
        ((stage.tick now).running = false → (stage.tick now).encounters.ongoing = []) := by
      rw [tick_of_running running]
      rcases conclude_cases (stage.advance now).meet with ⟨_, concludes⟩ | ⟨_, concludes⟩
      · rw [concludes]
        exact ⟨rfl, fun _ => rfl⟩
      · rw [concludes, goesOn.1, goesOn.2]
        exact ⟨tidy.animates, fun stopped => nomatch running.symm.trans stopped⟩
    obtain ⟨sameOrder, _, sameSelection⟩ := tick_listed stage now
    exact tidy.of_frame sameOrder sameSelection status.1 status.2

theorem removed (tidy : stage.Tidy) {actor : Actor} (live : stage.actor? id = some actor) :
    (stage.after (.remove id)).Tidy := by
  rw [(after_remove live).2]
  refine ⟨?_, tidy.animates, tidy.forgets⟩
  by_cases own : stage.selected = some id
  -- The first of the others is selected, if there is one.
  · simp only [if_pos own]
    cases stage.order.filter (· != id) with
    | nil => rfl
    | cons first rest => exact List.mem_cons_self
  · simp only [if_neg own]
    have was := tidy.selection
    cases selected : stage.selected with
    | none =>
      rw [selected] at was
      simp only [was, List.filter_nil]
    | some other =>
      rw [selected] at was own
      exact List.mem_filter.mpr ⟨was, by simpa using own⟩

theorem outcome (tidy : stage.Tidy) (coherent : stage.Coherent)
    (outcome : Outcome stage call changed) (remains : ∀ id, call ≠ .remove id) :
    changed.Tidy := by
  cases outcome with
  | refused => exact tidy
  | added => exact ⟨by simp, tidy.animates, tidy.forgets⟩
  | removed => exact absurd rfl (remains _)
  | selected live =>
    have present := List.mem_map_of_mem (f := Actor.id) (List.mem_of_find?_eq_some live)
    rw [id_of_actor? live, ← coherent.listed] at present
    exact ⟨present, tidy.animates, tidy.forgets⟩
  | dragged | resized | sentHome | chosen | edited =>
    exact tidy.of_frame rfl rfl tidy.animates tidy.forgets
  | started =>
    have launched : (stage.launch stage.currentLineup).Tidy :=
      tidy.of_frame rfl rfl rfl fun stopped => nomatch stopped
    exact launched.ticked _
  | ticked => exact tidy.ticked _

theorem after (tidy : stage.Tidy) (coherent : stage.Coherent) (call : Call) :
    (stage.after call).Tidy := by
  by_cases removes : ∃ id, call = .remove id
  · obtain ⟨id, rfl⟩ := removes
    cases live : stage.actor? id with
    | none => rwa [(after_remove_of_absent live).2]
    | some actor => exact tidy.removed live
  · exact tidy.outcome coherent (outcome_after stage call) fun id same => removes ⟨id, same⟩

theorem afterAll (tidy : stage.Tidy) (coherent : stage.Coherent) (calls : List Call) :
    (stage.afterAll calls).Tidy := by
  induction calls generalizing stage with
  | nil => exact tidy
  | cons call rest ih =>
    exact ih (tidy.after coherent call) (coherent.outcome (outcome_after stage call))

end Tidy

/-! ## Whole histories -/

variable [Trigonometry]

/-- No identity is handed out twice. The order of creation has those that were not taken out of
    use, as they were handed out: these are the identities under which an actor is found, and the
    stage lists their actors in this order, each once. There is a selection if there is anybody,
    and it is of somebody. Performing and moving are one and the same; the runs of a performance
    belong to different actors, in the order of the stage; and without a performance there are
    neither runs nor encounters. -/
theorem registry_coherent (settings : Settings) (calls : List Call) :
    let stage := (Stage.new settings).afterAll calls
    let created := (Stage.new settings).created calls
    let dismissed := (Stage.new settings).dismissed calls
    (created.Nodup ∧ dismissed.Nodup ∧ dismissed ⊆ created) ∧
      (stage.order.Nodup ∧ stage.order = created.filter (· ∉ dismissed) ∧
        (∀ id, id ∈ stage.order ↔ ∃ actor, stage.actor id = .ok actor) ∧
        (∀ actor ∈ stage.actors, stage.actor actor.id = .ok actor)) ∧
      (stage.roster.map (·.id) = stage.order ∧ stage.roster.Perm stage.actors) ∧
      ((stage.selected = none ↔ stage.roster = []) ∧
        ∀ id, stage.selected = some id → ∃ actor, stage.actor id = .ok actor) ∧
      stage.animating = stage.running ∧
      ((stage.runs.map (·.actor)).Nodup ∧ (stage.runs.map (·.actor)).Sublist stage.order) ∧
      (stage.running = false → stage.runs = [] ∧ stage.encounters.ongoing = []) := by
  intro stage created dismissed
  have registered : Registered created dismissed stage := (registered_new settings).afterAll calls
  have tidy : stage.Tidy := (tidy_new settings).afterAll (coherent_new settings) calls
  have coherent := registered.coherent
  have found (id : ActorId) : id ∈ stage.order ↔ ∃ actor, stage.actor id = .ok actor := by
    rw [coherent.listed]
    exact exists_actor_iff.symm
  refine ⟨⟨registered.issued.nodup, registered.goneOnce, registered.known⟩,
    ⟨registered.issued.nodup_live, registered.listed, found, ?lookUp⟩, ⟨?order, ?roster⟩,
    ⟨?selected, ?live⟩, tidy.animates, ⟨coherent.once, ?casting⟩,
    fun idle => ⟨coherent.idle idle, tidy.forgets idle⟩⟩
  case lookUp =>
    intro actor member
    simp only [Stage.actor, coherent.actor?_of_mem member]
  case order => rw [coherent.roster_eq, coherent.listed]
  case roster => rw [coherent.roster_eq]
  case selected =>
    have selection := tidy.selection
    rw [coherent.roster_eq, ← List.map_eq_nil_iff, ← coherent.listed]
    cases selects : stage.selected with
    | none =>
      rw [selects] at selection
      simpa using selection
    | some id =>
      rw [selects] at selection
      simp only [reduceCtorEq, false_iff]
      exact List.ne_nil_of_mem selection
  case live =>
    intro id selects
    have selection := tidy.selection
    rw [selects] at selection
    exact (found id).mp selection
  case casting => exact coherent.listed ▸ coherent.casting

end

/-- A pool of identities is such a source: the third actor has the index of the first, and is
    listed last all the same. -/
theorem registry_of_pool :
    let calls : List Call := [.add "cat", .add "dog", .remove ⟨0, 1⟩, .add "ball"]
    let stage := (Stage.new .standard).afterAll calls
    (Stage.new .standard).created calls = [⟨0, 1⟩, ⟨1, 1⟩, ⟨0, 2⟩] ∧
      stage.order = [⟨1, 1⟩, ⟨0, 2⟩] ∧ stage.roster.map (·.id) = [⟨1, 1⟩, ⟨0, 2⟩] ∧
      stage.selected = some ⟨0, 2⟩ := by
  intro calls stage
  have order : stage.order = [⟨1, 1⟩, ⟨0, 2⟩] := by decide +kernel
  obtain ⟨-, -, ⟨lists, -⟩, -⟩ := registry_coherent .standard calls
  exact ⟨by decide +kernel, order, lists.trans order, by decide +kernel⟩

end Troupe.Stage
