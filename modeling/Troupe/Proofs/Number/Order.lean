import Troupe.Number.Conversion

/-! # The order of numbers

The comparison of two numbers is the comparison of the other two turned around, which
makes `<` irreflexive and asymmetric, with `NaN` among them. Two numbers other than `NaN` are
in order one way or the other. Nothing here needs the numbers to be finite.
-/

namespace Troupe.Number

open Float.Model (UnpackedFloat)

/-- Comparing the other way around gives the opposite answer, and no answer if there was
    none. -/
theorem compare_swap (x y : UnpackedFloat) : y.compare x = (x.compare y).map Ordering.swap := by
  have words (a b : Int) (m n : Nat) :
      (compare b a).then (compare n m) = ((compare a b).then (compare m n)).swap := by
    rw [Ordering.swap_then, Std.OrientedOrd.eq_swap (a := b), Std.OrientedOrd.eq_swap (a := n)]
  cases x with
  | notANumber => cases y <;> rfl
  | infinity sign =>
    cases y with
    | infinity other => cases sign <;> cases other <;> rfl
    | notANumber | zero | finite => cases sign <;> rfl
  | zero sign =>
    cases y with
    | notANumber | zero => rfl
    | infinity other => cases other <;> rfl
    | finite other => cases other <;> rfl
  | finite sign mantissa exponent positive =>
    cases y with
    | notANumber => rfl
    | infinity other => cases sign <;> cases other <;> rfl
    | zero other => cases sign <;> rfl
    | finite other significand power positive =>
      have turned := words exponent power mantissa significand
      cases sign with
      | positive =>
        cases other with
        | positive => exact congrArg some turned
        | negative => rfl
      | negative =>
        cases other with
        | positive => rfl
        | negative => exact congrArg (fun order => some (Ordering.swap order)) turned

theorem compare_positive_eq_lt {mantissa significand : Nat} {exponent power : Int}
    {positive : 0 < mantissa} {positive' : 0 < significand} :
    (UnpackedFloat.finite .positive mantissa exponent positive).compare
        (.finite .positive significand power positive') = some .lt ↔
      exponent < power ∨ exponent = power ∧ mantissa < significand := by
  change some ((compare exponent power).then (compare mantissa significand)) = some .lt ↔ _
  simp only [Option.some.injEq, Ordering.then_eq_lt, Int.compare_eq_lt, Int.compare_eq_eq,
    Nat.compare_eq_lt]

theorem compare_negative {mantissa significand : Nat} {exponent power : Int}
    {positive : 0 < mantissa} {positive' : 0 < significand} :
    (UnpackedFloat.finite .negative mantissa exponent positive).compare
        (.finite .negative significand power positive') =
      (UnpackedFloat.finite .positive significand power positive').compare
        (.finite .positive mantissa exponent positive) :=
  (compare_swap (.finite .positive mantissa exponent positive)
    (.finite .positive significand power positive')).symm

theorem lt_iff_compare (x y : Float32) :
    x < y ↔ (fields32 x).compare (fields32 y) = some .lt := by
  change x.lt y = true ↔ _
  simp only [Float32.lt, decide_eq_true_eq]
  change ((fields32 x).compare (fields32 y) == some .lt) = true ↔ _
  exact beq_iff_eq

theorem lt_asymm {x y : Float32} (less : x < y) : ¬ y < x := by
  rw [lt_iff_compare] at less ⊢
  rw [compare_swap, less]
  decide

theorem lt_irrefl (x : Float32) : ¬ x < x := fun less => lt_asymm less less

theorem le_iff_compare (x y : Float32) :
    x ≤ y ↔ ∃ order, (fields32 x).compare (fields32 y) = some order ∧ order.isLE = true := by
  change x.le y = true ↔ _
  simp only [Float32.le, decide_eq_true_eq]
  change ((fields32 x).compare (fields32 y)).any (·.isLE) = true ↔ _
  simp only [Option.any_eq_true]

theorem not_lt_of_le {x y : Float32} (le : x ≤ y) : ¬ y < x := by
  obtain ⟨order, compares, isLE⟩ := (le_iff_compare x y).mp le
  rw [lt_iff_compare, compare_swap, compares]
  cases order <;> first | decide | cases isLE

theorem le_of_lt {x y : Float32} (less : x < y) : x ≤ y := by
  rw [lt_iff_compare] at less
  rw [le_iff_compare]
  exact ⟨_, less, rfl⟩

theorem exists_compare {x y : UnpackedFloat} (left : x.isNaN = false) (right : y.isNaN = false) :
    ∃ order, x.compare y = some order := by
  cases x with
  | notANumber => cases left
  | infinity sign =>
    cases y with
    | notANumber => cases right
    | infinity | zero | finite => cases sign <;> exact ⟨_, rfl⟩
  | zero sign =>
    cases y with
    | notANumber => cases right
    | infinity other | finite other => cases other <;> exact ⟨_, rfl⟩
    | zero => exact ⟨_, rfl⟩
  | finite sign =>
    cases y with
    | notANumber => cases right
    | infinity other | finite other => cases sign <;> cases other <;> exact ⟨_, rfl⟩
    | zero => cases sign <;> exact ⟨_, rfl⟩

/-- All numbers but `NaN` can be compared. -/
theorem le_of_not_lt {x y : Float32} (left : x.isNaN = false) (right : y.isNaN = false)
    (above : ¬ y < x) : x ≤ y := by
  obtain ⟨order, same⟩ := exists_compare (x := fields32 x) (y := fields32 y) left right
  rw [lt_iff_compare, compare_swap, same] at above
  rw [le_iff_compare]
  refine ⟨order, same, ?_⟩
  cases order with
  | lt | eq => rfl
  | gt => exact absurd rfl above

theorem lt_of_not_le {x y : Float32} (left : x.isNaN = false) (right : y.isNaN = false)
    (above : ¬ y ≤ x) : x < y := by
  obtain ⟨order, same⟩ := exists_compare (x := fields32 x) (y := fields32 y) left right
  rw [le_iff_compare, compare_swap, same] at above
  rw [lt_iff_compare, same]
  cases order with
  | lt => rfl
  | eq | gt => exact absurd ⟨_, rfl, rfl⟩ above

theorem isNaN_of_le {x y : Float32} (le : x ≤ y) : x.isNaN = false ∧ y.isNaN = false := by
  obtain ⟨order, same, _⟩ := (le_iff_compare x y).mp le
  change (fields32 x).isNaN = false ∧ (fields32 y).isNaN = false
  generalize fields32 x = left at same
  generalize fields32 y = right at same
  cases left with
  | notANumber => cases same
  | infinity sign | zero sign | finite sign =>
    cases right with
    | notANumber => cases sign <;> cases same
    | infinity | zero | finite => exact ⟨rfl, rfl⟩

end Troupe.Number
