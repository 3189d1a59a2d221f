import Troupe.Swap.Plan
import Troupe.Proofs.Geometry.Sound
import Troupe.Proofs.Geometry.Crossing
import Troupe.Proofs.Geometry.Straight

/-! # Which paths are exchanged

A plan holds a pair of indices exactly if the first path crosses the second. The first is the one
that is listed first, so a plan looks at every two paths from one side only. For paths in different
directions the side makes no difference. A short path along a long one, closer to it than the
tolerance divided by its own length, is exchanged if it is listed first; listed second, it may not
be.

* `mem_ofPaths_iff` — the pairs of a plan.
* `exchanged_in_any_order_iff` — the two paths for which a plan does not depend on their order.
* `neighbours_exchanged_in_one_order` — two paths for which it does.
-/

namespace Troupe.Swap

open Troupe.Geometry (Segment Point defaultTolerance)

namespace Plan

variable {tolerance : Float32} {i j : Nat}

/-! ## The pairs of a plan -/

theorem mem_pairsFrom_iff {paths : List Segment} {start : Nat} :
    (i, j) ∈ pairsFrom tolerance start paths ↔
      i < j ∧ ∃ a b, (a, i) ∈ paths.zipIdx start ∧ (b, j) ∈ paths.zipIdx start ∧
        a.crosses b tolerance = true := by
  induction paths generalizing start with
  | nil => simp [pairsFrom]
  | cons path rest ih =>
    simp only [pairsFrom, List.mem_append, List.mem_map, List.mem_filter, Prod.mk.injEq,
      List.zipIdx_cons, List.mem_cons]
    constructor
    · rintro (⟨⟨other, number⟩, ⟨listed, crosses⟩, rfl, rfl⟩ | later)
      · exact ⟨(List.mem_zipIdx listed).1, path, other, .inl ⟨rfl, rfl⟩, .inr listed, crosses⟩
      · obtain ⟨before, a, b, atI, atJ, crosses⟩ := ih.mp later
        exact ⟨before, a, b, .inr atI, .inr atJ, crosses⟩
    · rintro ⟨before, a, b, ⟨rfl, rfl⟩ | atI, ⟨rfl, rfl⟩ | atJ, crosses⟩
      case inl.inl => exact absurd before (Nat.lt_irrefl _)
      case inl.inr => exact .inl ⟨(b, j), ⟨atJ, crosses⟩, rfl, rfl⟩
      case inr.inl =>
        have after := (List.mem_zipIdx atI).1
        omega
      case inr.inr => exact .inr (ih.mpr ⟨before, a, b, atI, atJ, crosses⟩)

theorem mem_ofPaths_iff {paths : List Segment} :
    (i, j) ∈ (ofPaths paths tolerance).pairs ↔
      i < j ∧ ∃ a b, paths[i]? = some a ∧ paths[j]? = some b ∧ a.crosses b tolerance = true := by
  simp only [ofPaths, mem_pairsFrom_iff, List.mem_zipIdx_iff_getElem?]

theorem mem_ofPaths_iff_crosses {paths : List Segment} {a b : Segment} (before : i < j)
    (atI : paths[i]? = some a) (atJ : paths[j]? = some b) :
    (i, j) ∈ (ofPaths paths tolerance).pairs ↔ a.crosses b tolerance = true := by
  rw [mem_ofPaths_iff]
  constructor
  · rintro ⟨-, path, other, atI', atJ', crosses⟩
    cases atI.symm.trans atI'
    cases atJ.symm.trans atJ'
    exact crosses
  · exact fun crosses => ⟨before, a, b, atI, atJ, crosses⟩

/-! ## The order of the paths -/

/-- Whether any two plans agree on two paths, one having the first path listed before the second
    and the other the second before the first. -/
def ExchangedInAnyOrder (a b : Segment) (tolerance : Float32) : Prop :=
  ∀ (paths others : List Segment) (i j k l : Nat), i < j → k < l →
    paths[i]? = some a → paths[j]? = some b → others[k]? = some b → others[l]? = some a →
      ((i, j) ∈ (ofPaths paths tolerance).pairs ↔ (k, l) ∈ (ofPaths others tolerance).pairs)

theorem exchangedInAnyOrder_iff_crosses {a b : Segment} :
    ExchangedInAnyOrder a b tolerance ↔ a.crosses b tolerance = b.crosses a tolerance := by
  constructor
  case mp =>
    intro alike
    have swapped := alike [a, b] [b, a] 0 1 0 1 Nat.one_pos Nat.one_pos rfl rfl rfl rfl
    rw [mem_ofPaths_iff_crosses Nat.one_pos rfl rfl, mem_ofPaths_iff_crosses Nat.one_pos rfl rfl]
      at swapped
    exact Bool.eq_iff_iff.mpr swapped
  case mpr =>
    intro same paths others i j k l before before' atI atJ atK atL
    rw [mem_ofPaths_iff_crosses before atI atJ, mem_ofPaths_iff_crosses before' atK atL, same]

/-- Which of two paths is listed first, and which is tested against the other, makes a difference
    only for parallel paths, and only if one of them takes the other for a part of its own line and
    is not taken so itself. It makes none for paths that are apart, unless rounding has a part in the
    test. For two paths along the same axis it makes none if they do not run beside each other; and
    if they do, for a pixel at least, it makes a difference exactly when the distance between their
    lines, multiplied by the length of one of them, is within the tolerance, but not when it is
    multiplied by the length of the other. -/
theorem exchanged_in_any_order_iff (a b : Segment) (tolerance : Float32) :
    (a.crosses b tolerance = b.crosses a tolerance ↔ ExchangedInAnyOrder a b tolerance) ∧
      (ExchangedInAnyOrder a b tolerance ↔
        (a.IsParallel b tolerance → a.runsAlong b tolerance = b.runsAlong a tolerance)) ∧
      (a.IsClear b → b.IsClear a → a.IsApart b → ExchangedInAnyOrder a b defaultTolerance) ∧
      ∀ axis, a.IsStraight axis → b.IsStraight axis →
        (a.shared b axis ≤ 0 → ExchangedInAnyOrder a b tolerance) ∧
        (1 ≤ a.shared b axis →
          (ExchangedInAnyOrder a b tolerance ↔
            (a.offset b axis ≤ tolerance ↔ b.offset a axis ≤ tolerance))) := by
  refine ⟨exchangedInAnyOrder_iff_crosses.symm,
    exchangedInAnyOrder_iff_crosses.trans (Segment.crosses_swap_iff a b tolerance), ?apart, ?axis⟩
  case apart =>
    intro clear clear' apart
    have never : a.crosses b defaultTolerance = false :=
      Bool.eq_false_iff.mpr fun crosses => Segment.not_isApart_of_crosses clear crosses apart
    have never' : b.crosses a defaultTolerance = false :=
      Bool.eq_false_iff.mpr fun crosses => Segment.not_isApart_of_crosses clear' crosses apart.swap
    exact exchangedInAnyOrder_iff_crosses.mpr (never.trans never'.symm)
  case axis =>
    intro axis first second
    rw [exchangedInAnyOrder_iff_crosses]
    refine ⟨fun beyond => ?_, fun beside => ?_⟩
    · rw [Segment.crosses_swap_iff_of_isStraight first second (.inl beyond)]
      exact fun beside => absurd beyond (by linarith)
    · rw [Segment.crosses_swap_iff_of_isStraight first second (.inr beside),
        forall_prop_of_true beside]

/-- A thousandth of a pixel along the lower edge. -/
def shortStep : Segment := ⟨⟨0, 0⟩, ⟨0.0009765625, 0⟩⟩

/-- A hundred pixels, a thirty-second of a pixel above the lower edge. -/
def longWalk : Segment := ⟨⟨0, 0.03125⟩, ⟨100, 0.03125⟩⟩

theorem neighbours_exchanged_in_one_order :
    shortStep.start.IsFinite ∧ shortStep.finish.IsFinite ∧
      longWalk.start.IsFinite ∧ longWalk.finish.IsFinite ∧
      0 ≤ defaultTolerance ∧ defaultTolerance.isFinite = true ∧
      shortStep.crosses longWalk defaultTolerance = true ∧
      longWalk.crosses shortStep defaultTolerance = false ∧
      (ofPaths [shortStep, longWalk] defaultTolerance).pairs = [(0, 1)] ∧
      (ofPaths [longWalk, shortStep] defaultTolerance).pairs = [] := by
  unfold Point.IsFinite
  decide +kernel

end Plan

end Troupe.Swap
