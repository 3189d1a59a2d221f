import Mathlib.Data.List.Nodup
import Troupe.Proofs.Actor.Keyed
import Troupe.Proofs.Swap.Encounter
import Troupe.Proofs.Swap.Grid

/-! # Everybody who is close is found

The grid is a shortcut. It offers each actor the entries of nine buckets, some of them more than
once and some from far away, and only distances decide. So if actors that are close to each other
stand in cells side by side, the encounters that begin are those that a scan of all pairs finds,
each once.

* `couples`, `Encounters.scan` — all pairs of a list, and the encounters that begin among them.
* `Encounters.Lasts` — an encounter that goes on.
* `Encounters.Covered` — whether close actors stand in cells side by side.
* `update_perm_scan` — the encounters that begin and that go on, with the grid and without.
-/

namespace Troupe.Swap

/-! ## All pairs -/

/-- Every two items of a list, the one that is listed first being first. -/
def couples {α : Type} : List α → List (α × α)
  | [] => []
  | first :: rest => rest.map (first, ·) ++ couples rest

theorem mem_couples_iff {α : Type} {items : List α} {a b : α} :
    (a, b) ∈ couples items ↔ ∃ i j : Nat, i < j ∧ items[i]? = some a ∧ items[j]? = some b := by
  induction items with
  | nil => simp [couples]
  | cons first rest ih =>
    simp only [couples, List.mem_append, List.mem_map, Prod.mk.injEq, ih]
    constructor
    · rintro (⟨other, member, rfl, rfl⟩ | ⟨i, j, before, atI, atJ⟩)
      · obtain ⟨j, atJ⟩ := List.mem_iff_getElem?.mp member
        exact ⟨0, j + 1, Nat.succ_pos j, rfl, atJ⟩
      · exact ⟨i + 1, j + 1, Nat.succ_lt_succ before, atI, atJ⟩
    · rintro ⟨i, j, before, atI, atJ⟩
      cases j with
      | zero => cases before
      | succ j =>
        cases i with
        | zero => exact .inl ⟨b, List.mem_of_getElem? atJ, by simpa using atI, rfl⟩
        | succ i => exact .inr ⟨i, j, Nat.lt_of_succ_lt_succ before, atI, atJ⟩

theorem mem_of_mem_couples {α : Type} {items : List α} {a b : α} (couple : (a, b) ∈ couples items) :
    a ∈ items ∧ b ∈ items := by
  obtain ⟨i, j, _, atI, atJ⟩ := mem_couples_iff.mp couple
  exact ⟨List.mem_of_getElem? atI, List.mem_of_getElem? atJ⟩

namespace Encounters

/-- Two actors as a pair in their order. -/
def pairOf (couple : Placed × Placed) : ActorId × ActorId :=
  ActorId.orderedPair couple.1.1 couple.2.1

theorem orderedPair_eq_cases {a b c d : ActorId}
    (same : ActorId.orderedPair a b = ActorId.orderedPair c d) :
    (a = c ∧ b = d) ∨ (a = d ∧ b = c) := by
  unfold ActorId.orderedPair at same
  split at same <;> split at same <;> cases same
  · exact .inl ⟨rfl, rfl⟩
  · exact .inr ⟨rfl, rfl⟩
  · exact .inr ⟨rfl, rfl⟩
  · exact .inl ⟨rfl, rfl⟩

/-- Where nobody is listed twice, every two entries are another pair. -/
theorem nodup_pairs {placed : List Placed} (distinct : (placed.map (·.1)).Nodup) :
    ((couples placed).map pairOf).Nodup := by
  induction placed with
  | nil => exact .nil
  | cons me rest ih =>
    obtain ⟨notAgain, distinct⟩ := List.nodup_cons.mp distinct
    rw [couples, List.map_append, List.map_map]
    refine List.nodup_append.mpr ⟨?mine, ih distinct, ?apart⟩
    case mine =>
      have others : (rest.map fun other => ActorId.orderedPair me.1 other.1) =
          (rest.map (·.1)).map (ActorId.orderedPair me.1) := by rw [List.map_map]; rfl
      change (rest.map fun other => ActorId.orderedPair me.1 other.1).Nodup
      rw [others]
      refine distinct.map fun a b same => ?_
      rcases orderedPair_eq_cases same with ⟨_, same⟩ | ⟨here, there⟩
      · exact same
      · exact there.trans here
    -- A later pair does not have the first actor in it.
    case apart =>
      rintro pair mine _ others rfl
      obtain ⟨other, _, rfl⟩ := List.mem_map.mp mine
      obtain ⟨⟨a, b⟩, couple, same⟩ := List.mem_map.mp others
      obtain ⟨listedA, listedB⟩ := mem_of_mem_couples couple
      rcases orderedPair_eq_cases same with ⟨isMe, _⟩ | ⟨_, isMe⟩
      · exact notAgain (List.mem_map.mpr ⟨a, listedA, isMe⟩)
      · exact notAgain (List.mem_map.mpr ⟨b, listedB, isMe⟩)

/-! ## The scan -/

/-- Whether an encounter goes on: both actors are there and not farther apart than the radius. -/
def Lasts (encounters : Encounters) (placed : List Placed) (pair : ActorId × ActorId) : Prop :=
  pair ∈ encounters.ongoing ∧ ∃ a ∈ placed, ∃ b ∈ placed, a.1 = pair.1 ∧ b.1 = pair.2 ∧
    a.2.distanceSquared b.2 ≤ encounters.radiusSquared

instance (encounters : Encounters) (placed : List Placed) (pair : ActorId × ActorId) :
    Decidable (encounters.Lasts placed pair) :=
  inferInstanceAs (Decidable (_ ∧ _))

/-- The encounters that begin among all pairs: those of actors that are not at least the radius
    apart, unless theirs goes on. -/
def scan (encounters : Encounters) (placed : List Placed) : List (ActorId × ActorId) :=
  let close := (couples placed).filter fun (me, other) =>
    ¬ encounters.radiusSquared ≤ me.2.distanceSquared other.2
  (close.map pairOf).filter fun pair => ¬ encounters.Lasts placed pair

/-- Whether every two actors that are not at least the radius apart stand in cells side by side. -/
def Covered (encounters : Encounters) (placed : List Placed) : Prop :=
  ∀ couple ∈ couples placed,
    ¬ encounters.radiusSquared ≤ couple.1.2.distanceSquared couple.2.2 →
      ((encounters.gridOf placed).cellAt couple.1.2).IsBeside
        ((encounters.gridOf placed).cellAt couple.2.2)

instance (encounters : Encounters) (placed : List Placed) : Decidable (encounters.Covered placed) :=
  inferInstanceAs (Decidable (∀ couple ∈ couples placed, _))

variable {encounters : Encounters} {placed : List Placed} {pair : ActorId × ActorId}

theorem nodup_scan (distinct : (placed.map (·.1)).Nodup) : (encounters.scan placed).Nodup :=
  ((nodup_pairs distinct).sublist (List.filter_sublist.map pairOf)).filter _

/-! ## Parting -/

theorem positionOf?_eq_some_iff (distinct : (placed.map (·.1)).Nodup) {id : ActorId}
    {position : Geometry.Point} :
    positionOf? placed id = some position ↔ (id, position) ∈ placed := by
  have reversed : (placed.reverse.map (·.1)).Nodup := by
    rw [List.map_reverse]
    exact List.nodup_reverse.mpr distinct
  simp only [positionOf?, Option.map_eq_some_iff, find?_eq_some_iff reversed, List.mem_reverse]
  constructor
  · rintro ⟨⟨_, _⟩, ⟨listed, rfl⟩, rfl⟩
    exact listed
  · intro listed
    exact ⟨_, ⟨listed, rfl⟩, rfl⟩

theorem mem_dropParted_iff (distinct : (placed.map (·.1)).Nodup) :
    pair ∈ (encounters.dropParted placed).ongoing ↔ encounters.Lasts placed pair := by
  rw [dropParted, List.mem_filter, Lasts]
  refine and_congr_right fun _ => ?_
  have found (id : ActorId) (position : Geometry.Point) :=
    @positionOf?_eq_some_iff placed distinct id position
  unfold areTogether
  constructor
  · intro together
    split at together
    case h_1 a b isA isB =>
      exact ⟨_, (found _ _).mp isA, _, (found _ _).mp isB, rfl, rfl, by simpa using together⟩
    case h_2 => cases together
  · rintro ⟨⟨_, a⟩, listedA, ⟨_, b⟩, listedB, rfl, rfl, near⟩
    rw [(found _ _).mpr listedA, (found _ _).mpr listedB]
    simpa using near

/-! ## Meeting -/

theorem nodup_unseen (known pairs : List (ActorId × ActorId)) : (unseen known pairs).Nodup := by
  induction pairs generalizing known with
  | nil => exact .nil
  | cons first rest ih =>
    unfold unseen
    split
    · exact ih known
    · refine List.nodup_cons.mpr ⟨fun again => ?_, ih _⟩
      exact (mem_unseen_iff.mp again).2 List.mem_cons_self

/-- The grid offers everybody who is close, if those stand in cells side by side. -/
theorem mem_closePairs_iff_of_covered (covered : encounters.Covered placed) :
    pair ∈ encounters.closePairs placed ↔
      ∃ couple ∈ couples placed,
        ¬ encounters.radiusSquared ≤ couple.1.2.distanceSquared couple.2.2 ∧
        pairOf couple = pair := by
  rw [mem_closePairs_iff]
  constructor
  · rintro ⟨i, j, me, other, before, atI, atJ, _, close, rfl⟩
    refine ⟨(me, other), mem_couples_iff.mpr ⟨i, j, before, atI, atJ⟩, ?_, rfl⟩
    simpa [isClose] using close
  · rintro ⟨⟨me, other⟩, couple, close, rfl⟩
    obtain ⟨i, j, before, atI, atJ⟩ := mem_couples_iff.mp couple
    refine ⟨i, j, me, other, before, atI, atJ, ?_, by simpa [isClose] using close, rfl⟩
    have beside := covered _ couple close
    simp only [gridOf, Grid.cellAt_rebuild] at beside
    have numbered : (placed.map (·.2))[j]? = some other.2 := by
      rw [List.getElem?_map, atJ, Option.map_some]
    exact Grid.mem_near_of_isBeside (Grid.size_empty _ _) numbered beside

theorem mem_begun_iff_of_covered (distinct : (placed.map (·.1)).Nodup)
    (covered : encounters.Covered placed) :
    pair ∈ (encounters.update placed).1 ↔ pair ∈ encounters.scan placed := by
  have sameClose : (encounters.dropParted placed).closePairs placed =
      encounters.closePairs placed := rfl
  rw [update, mem_unseen_iff, sameClose, mem_closePairs_iff_of_covered covered,
    mem_dropParted_iff distinct]
  simp only [scan, List.mem_filter, List.mem_map, decide_eq_true_eq, and_assoc]

/-- The encounters that begin are those of the scan, each reported once, however many buckets the
    grid has and whatever cells are folded into one. From here on those go on that have lasted, and
    those that begin. -/
theorem update_perm_scan (encounters : Encounters) {placed : List Placed}
    (distinct : (placed.map (·.1)).Nodup) (covered : encounters.Covered placed) :
    let (begun, later) := encounters.update placed
    begun.Nodup ∧ begun.Perm (encounters.scan placed) ∧
      ∀ pair, pair ∈ later.ongoing ↔ encounters.Lasts placed pair ∨ pair ∈ begun := by
  have once : (encounters.update placed).1.Nodup := nodup_unseen _ _
  refine ⟨once, (List.perm_ext_iff_of_nodup once (nodup_scan distinct)).mpr fun pair =>
    mem_begun_iff_of_covered distinct covered, fun pair => ?_⟩
  rw [← mem_dropParted_iff distinct]
  exact List.mem_append

/-- Three actors in a row and one far away. Two of the three have met before, and so have one of
    them and the one who is far away now. -/
def crowd : List Placed :=
  [(⟨0, 1⟩, ⟨100, 100⟩), (⟨1, 1⟩, ⟨130, 100⟩), (⟨2, 1⟩, ⟨170, 100⟩), (⟨3, 1⟩, ⟨900, 500⟩)]

/-- In a grid with a single bucket everybody is offered nine times over. -/
def crowdEncounters : Encounters :=
  ⟨80, 1, [(⟨0, 1⟩, ⟨1, 1⟩), (⟨0, 1⟩, ⟨3, 1⟩)]⟩

theorem crowd_perm_scan :
    crowdEncounters.Covered crowd ∧
      (crowdEncounters.update crowd).1 = [(⟨0, 1⟩, ⟨2, 1⟩), (⟨1, 1⟩, ⟨2, 1⟩)] ∧
      (crowdEncounters.update crowd).1.Perm (crowdEncounters.scan crowd) ∧
      ¬ (crowdEncounters.update crowd).2.isOngoing ⟨0, 1⟩ ⟨3, 1⟩ := by
  have distinct : (crowd.map (·.1)).Nodup := by decide
  have covered : crowdEncounters.Covered crowd := by decide +kernel
  obtain ⟨_, begins, _⟩ := update_perm_scan crowdEncounters distinct covered
  exact ⟨covered, by decide +kernel, begins, by decide +kernel⟩

end Encounters

end Troupe.Swap
