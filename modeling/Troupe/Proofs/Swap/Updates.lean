import Troupe.Proofs.Geometry.Distance
import Troupe.Proofs.Swap.Scan

/-! # One report for each encounter

A pair is reported when it comes closer than the radius, and not again until it has parted. To stay
together it need not be closer than the radius, only not farther apart, so a pair right at the
radius neither meets nor parts. The two tests agree on which pairs are too close to part, because
distances of finite positions are numbers and do not depend on who is listed first.

* `WellPlaced` — positions that have distances.
* `Together`, `Apart` — two actors within the radius, and two who are not.
* `isOngoing_update_iff`, `not_lasting_of_reported` — one update.
* `update_again` — the same positions once more.
* `after`, `Reports` — a sequence of updates, and `one_report_per_encounter` about it.
-/

namespace Troupe.Swap.Encounters

open Troupe.Geometry (Point)
open Troupe.Number

/-! ## Together and apart -/

/-- Nobody is listed twice, and everybody stands somewhere finite. -/
structure WellPlaced (placed : List Placed) : Prop where
  distinct : (placed.map (·.1)).Nodup
  finite : ∀ entry ∈ placed, entry.2.IsFinite

/-- Whether two actors are listed with a squared distance of this kind. -/
def AtDistance (placed : List Placed) (a b : ActorId) (holds : Float32 → Prop) : Prop :=
  ∃ p q : Point, (a, p) ∈ placed ∧ (b, q) ∈ placed ∧ holds (p.distanceSquared q)

def Together (encounters : Encounters) (placed : List Placed) (a b : ActorId) : Prop :=
  AtDistance placed a b (· ≤ encounters.radiusSquared)

def Apart (encounters : Encounters) (placed : List Placed) (a b : ActorId) : Prop :=
  a ∉ placed.map (·.1) ∨ b ∉ placed.map (·.1) ∨
    AtDistance placed a b (encounters.radiusSquared < ·)

theorem AtDistance.swap {placed : List Placed} {a b : ActorId} {holds : Float32 → Prop}
    (measured : AtDistance placed a b holds) : AtDistance placed b a holds := by
  obtain ⟨p, q, listedA, listedB, distance⟩ := measured
  exact ⟨q, p, listedB, listedA, Point.distanceSquared_swap p q ▸ distance⟩

/-- A distance is the same whoever comes first in the order of actors. -/
theorem atDistance_orderedPair {placed : List Placed} {a b : ActorId} {holds : Float32 → Prop} :
    AtDistance placed (ActorId.orderedPair a b).1 (ActorId.orderedPair a b).2 holds ↔
      AtDistance placed a b holds := by
  unfold ActorId.orderedPair
  split
  · exact .rfl
  · exact ⟨.swap, .swap⟩

variable {encounters : Encounters} {placed : List Placed} {a b : ActorId}

theorem isNaN_radiusSquared (number : encounters.radius.isNaN = false) :
    encounters.radiusSquared.isNaN = false :=
  (signed_mul_self number).isNaN_eq_false

theorem together_of_not_apart (number : encounters.radius.isNaN = false)
    (wellPlaced : WellPlaced placed) (near : ¬ encounters.Apart placed a b) :
    encounters.Together placed a b := by
  simp only [Apart, not_or, Classical.not_not, List.mem_map] at near
  obtain ⟨⟨⟨_, p⟩, listedA, rfl⟩, ⟨⟨_, q⟩, listedB, rfl⟩, notFar⟩ := near
  have measured := Point.isNaN_distanceSquared (wellPlaced.finite _ listedA)
    (wellPlaced.finite _ listedB)
  refine ⟨p, q, listedA, listedB, le_of_not_lt measured (isNaN_radiusSquared number) ?_⟩
  exact fun far => notFar ⟨p, q, listedA, listedB, far⟩

theorem lasts_orderedPair_iff :
    encounters.Lasts placed (ActorId.orderedPair a b) ↔
      encounters.isOngoing a b = true ∧ encounters.Together placed a b := by
  rw [Together, ← atDistance_orderedPair, Lasts, isOngoing, List.contains_iff_mem]
  refine and_congr_right fun _ => ⟨?_, ?_⟩
  · rintro ⟨⟨_, p⟩, listedA, ⟨_, q⟩, listedB, rfl, rfl, near⟩
    exact ⟨p, q, listedA, listedB, near⟩
  · rintro ⟨p, q, listedA, listedB, near⟩
    exact ⟨_, listedA, _, listedB, rfl, rfl, near⟩

/-! ## One update -/

theorem isOngoing_update_iff (distinct : (placed.map (·.1)).Nodup) :
    (encounters.update placed).2.isOngoing a b = true ↔
      (encounters.isOngoing a b = true ∧ encounters.Together placed a b) ∨
        ActorId.orderedPair a b ∈ (encounters.update placed).1 := by
  rw [← lasts_orderedPair_iff, ← mem_dropParted_iff distinct, isOngoing, List.contains_iff_mem]
  exact List.mem_append

/-- Whoever is reported has come closer than the radius. -/
theorem close_of_reported (number : encounters.radius.isNaN = false)
    (wellPlaced : WellPlaced placed)
    (reported : ActorId.orderedPair a b ∈ (encounters.update placed).1) :
    AtDistance placed a b (· < encounters.radiusSquared) := by
  obtain ⟨i, j, me, other, _, atI, atJ, _, close, same⟩ :=
    mem_closePairs_iff.mp (mem_unseen_iff.mp reported).1
  have listed := List.mem_of_getElem? atI
  have listed' := List.mem_of_getElem? atJ
  have measured := Point.isNaN_distanceSquared (wellPlaced.finite _ listed)
    (wellPlaced.finite _ listed')
  have notFar : ¬ (encounters.dropParted placed).radiusSquared ≤ me.2.distanceSquared other.2 := by
    simpa [isClose] using close
  have closer := lt_of_not_le measured (isNaN_radiusSquared number) notFar
  rw [← atDistance_orderedPair, same, atDistance_orderedPair]
  exact ⟨_, _, listed, listed', closer⟩

theorem together_of_reported (number : encounters.radius.isNaN = false)
    (wellPlaced : WellPlaced placed)
    (reported : ActorId.orderedPair a b ∈ (encounters.update placed).1) :
    encounters.Together placed a b := by
  obtain ⟨p, q, listedA, listedB, closer⟩ := close_of_reported number wellPlaced reported
  exact ⟨p, q, listedA, listedB, le_of_lt closer⟩

/-- Whoever is reported was not together with the other one already. -/
theorem not_lasting_of_reported (wellPlaced : WellPlaced placed)
    (reported : ActorId.orderedPair a b ∈ (encounters.update placed).1) :
    ¬ (encounters.isOngoing a b = true ∧ encounters.Together placed a b) := by
  rw [← lasts_orderedPair_iff, ← mem_dropParted_iff wellPlaced.distinct]
  exact (mem_unseen_iff.mp reported).2

/-- The same positions once more: nobody has parted, and everybody who is close is known. -/
theorem update_again (number : encounters.radius.isNaN = false) (wellPlaced : WellPlaced placed) :
    (encounters.update placed).2.update placed = ([], (encounters.update placed).2) := by
  let later := (encounters.update placed).2
  have kept : later.dropParted placed = later := by
    refine congrArg (fun ongoing => { later with ongoing }) (List.filter_eq_self.mpr ?_)
    intro pair ongoing
    rcases List.mem_append.mp ongoing with remained | begun
    · exact (List.mem_filter.mp remained).2
    · obtain ⟨_, _, me, other, _, _, _, _, _, rfl⟩ :=
        mem_closePairs_iff.mp (mem_unseen_iff.mp begun).1
      have near : encounters.Together placed me.1 other.1 :=
        together_of_reported number wellPlaced begun
      have lasts : later.Lasts placed (ActorId.orderedPair me.1 other.1) :=
        lasts_orderedPair_iff.mpr ⟨List.contains_iff_mem.mpr ongoing, near⟩
      exact (List.mem_filter.mp ((mem_dropParted_iff wellPlaced.distinct).mpr lasts)).2
  have nobody : unseen later.ongoing (later.closePairs placed) = [] := by
    refine List.eq_nil_iff_forall_not_mem.mpr fun pair new => ?_
    obtain ⟨close, unknown⟩ := mem_unseen_iff.mp new
    rw [show later.ongoing = (encounters.dropParted placed).ongoing ++ (encounters.update placed).1
      from rfl, List.mem_append, not_or] at unknown
    exact unknown.2 (mem_unseen_iff.mpr ⟨close, unknown.1⟩)
  change later.update placed = ([], later)
  simp only [update, kept, nobody, List.append_nil]

/-! ## A sequence of updates -/

/-- The encounters after the first updates of a sequence. -/
def after (encounters : Encounters) (frames : Nat → List Placed) : Nat → Encounters
  | 0 => encounters
  | updates + 1 => ((encounters.after frames updates).update (frames updates)).2

/-- Whether an update of a sequence reports two actors. -/
def Reports (encounters : Encounters) (frames : Nat → List Placed) (update : Nat)
    (a b : ActorId) : Prop :=
  ActorId.orderedPair a b ∈ ((encounters.after frames update).update (frames update)).1

variable {frames : Nat → List Placed}

theorem radius_after (encounters : Encounters) (frames : Nat → List Placed) (updates : Nat) :
    (encounters.after frames updates).radius = encounters.radius := by
  induction updates with
  | zero => rfl
  | succ updates ih => exact ih

theorem together_after (updates : Nat) :
    (encounters.after frames updates).Together placed a b ↔ encounters.Together placed a b := by
  simp only [Together, radiusSquared, radius_after]

/-- An encounter goes on if it was reported and the two have been together since. -/
theorem isOngoing_after_iff (fresh : encounters.ongoing = [])
    (distinct : ∀ update, ((frames update).map (·.1)).Nodup) (updates : Nat) :
    (encounters.after frames updates).isOngoing a b = true ↔
      ∃ m < updates, encounters.Reports frames m a b ∧
        ∀ k, m < k → k < updates → encounters.Together (frames k) a b := by
  induction updates with
  | zero => simp [after, isOngoing, fresh]
  | succ updates ih =>
    rw [after, isOngoing_update_iff (distinct updates), ih, together_after]
    constructor
    · rintro (⟨⟨m, earlier, reported, since⟩, now⟩ | reported)
      · refine ⟨m, by omega, reported, fun k later upTo => ?_⟩
        rcases Nat.lt_succ_iff_lt_or_eq.mp upTo with before | rfl
        · exact since k later before
        · exact now
      · exact ⟨updates, by omega, reported, fun k later upTo => by omega⟩
    · rintro ⟨m, upTo, reported, since⟩
      rcases Nat.lt_succ_iff_lt_or_eq.mp upTo with earlier | rfl
      · left
        refine ⟨⟨m, earlier, reported, fun k later before => since k later (by omega)⟩, ?_⟩
        exact since updates earlier (by omega)
      · exact .inr reported

/-- From one report of two actors to the next there is an update that finds one of them missing or
    the two farther apart than the radius. Their encounter goes on from a report for as long as no
    update does. -/
theorem one_report_per_encounter (fresh : encounters.ongoing = [])
    (number : encounters.radius.isNaN = false) (wellPlaced : ∀ update, WellPlaced (frames update))
    (a b : ActorId) :
    (∀ m n, m < n → encounters.Reports frames m a b → encounters.Reports frames n a b →
        ∃ k, m < k ∧ k < n ∧ encounters.Apart (frames k) a b) ∧
      (∀ n, (encounters.after frames (n + 1)).isOngoing a b = true ↔
        ∃ m ≤ n, encounters.Reports frames m a b ∧
          ∀ k, m < k → k ≤ n → encounters.Together (frames k) a b) ∧
      ∀ n, encounters.Reports frames n a b → encounters.Together (frames n) a b := by
  have distinct (update : Nat) := (wellPlaced update).distinct
  have numbers (update : Nat) : (encounters.after frames update).radius.isNaN = false := by
    rwa [radius_after]
  have together {n : Nat} (reported : encounters.Reports frames n a b) :
      encounters.Together (frames n) a b :=
    (together_after n).mp (together_of_reported (numbers n) (wellPlaced n) reported)
  refine ⟨?again, ?ongoing, fun n => together⟩
  case again =>
    intro m n earlier reported again
    -- Had they been together all the time, the encounter would still go on.
    by_contra never
    have since (k : Nat) (later : m < k) (before : k < n) : encounters.Together (frames k) a b :=
      together_of_not_apart number (wellPlaced k) fun apart => never ⟨k, later, before, apart⟩
    have ongoing := (isOngoing_after_iff fresh distinct n).mpr ⟨m, earlier, reported, since⟩
    exact not_lasting_of_reported (wellPlaced n) again
      ⟨ongoing, (together_after n).mpr (together again)⟩
  case ongoing =>
    intro n
    rw [isOngoing_after_iff fresh distinct]
    simp only [Nat.lt_succ_iff]

/-- Two actors who meet, stay together, part and meet again, the other one being listed first. -/
def returningPair : Nat → List Placed
  | 0 => [(⟨0, 1⟩, ⟨0, 0⟩), (⟨1, 1⟩, ⟨200, 0⟩)]
  | 1 => [(⟨0, 1⟩, ⟨0, 0⟩), (⟨1, 1⟩, ⟨50, 0⟩)]
  | 2 => [(⟨0, 1⟩, ⟨0, 0⟩), (⟨1, 1⟩, ⟨80, 0⟩)]
  | 3 => [(⟨0, 1⟩, ⟨0, 0⟩), (⟨1, 1⟩, ⟨120, 0⟩)]
  | 4 => [(⟨1, 1⟩, ⟨10, 0⟩), (⟨0, 1⟩, ⟨0, 0⟩)]
  | _ => []

theorem wellPlaced_returningPair (update : Nat) : WellPlaced (returningPair update) := by
  match update with
  | 0 | 1 | 2 | 3 | 4 => exact ⟨by decide, by unfold Point.IsFinite; decide +kernel⟩
  | _ + 5 => exact ⟨.nil, fun _ member => nomatch member⟩

theorem returningPair_reported_again :
    let encounters := Encounters.new 80
    encounters.ongoing = [] ∧ encounters.radius.isNaN = false ∧
      encounters.Reports returningPair 1 ⟨0, 1⟩ ⟨1, 1⟩ ∧
      encounters.Reports returningPair 4 ⟨0, 1⟩ ⟨1, 1⟩ ∧
      (∃ k, 1 < k ∧ k < 4 ∧ encounters.Apart (returningPair k) ⟨0, 1⟩ ⟨1, 1⟩) ∧
      ∃ m ≤ 2, encounters.Reports returningPair m ⟨0, 1⟩ ⟨1, 1⟩ ∧
        ∀ k, m < k → k ≤ 2 → encounters.Together (returningPair k) ⟨0, 1⟩ ⟨1, 1⟩ := by
  have number : (Encounters.new 80).radius.isNaN = false := by decide +kernel
  have meets : (Encounters.new 80).Reports returningPair 1 ⟨0, 1⟩ ⟨1, 1⟩ := by
    unfold Reports
    decide +kernel
  have returns : (Encounters.new 80).Reports returningPair 4 ⟨0, 1⟩ ⟨1, 1⟩ := by
    unfold Reports
    decide +kernel
  have goesOn : ((Encounters.new 80).after returningPair 3).isOngoing ⟨0, 1⟩ ⟨1, 1⟩ = true := by
    decide +kernel
  obtain ⟨again, ongoing, _⟩ :=
    @one_report_per_encounter (Encounters.new 80) returningPair rfl number
      wellPlaced_returningPair ⟨0, 1⟩ ⟨1, 1⟩
  exact ⟨rfl, number, meets, returns, again 1 4 (by decide) meets returns, (ongoing 2).mp goesOn⟩

end Troupe.Swap.Encounters
