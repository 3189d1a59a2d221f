import Mathlib
import Troupe.Proofs.Geometry.Close
import Troupe.Proofs.Number.Error
import Troupe.Proofs.Number.Floor
import Troupe.Proofs.Number.Weighted
import Troupe.Proofs.Swap.Updates

/-! # Nine cells cover the circle

Cells are twice as wide as the radius, but what is compared are floors of rounded products with a
rounded reciprocal. Far from the origin, neighbouring products are as far apart as whole numbers
are. It is the positions themselves that help there: they are as coarse as the products, so two of
them that differ are not within the radius any more. Where there are positions within the radius of
each other that differ, the products are hardly larger than `2 ^ 23`, and the floors of their exact
values bound the rounded ones.

* `isScale_empty` — the reciprocal of the side, for every radius.
* `column_le` — columns (or rows) of coordinates within the radius.
* `cells_of_close` — cells of positions within the radius.
* `close_cells_adjoin`, `covered_of_isFinite` — so nobody who is close is overlooked.
* `begun_perm_scan_of_isFinite` — the encounters that begin are those of a scan of all pairs.
-/

namespace Troupe.Number

open Float.Model (UnpackedFloat Format)
open Float.Model.UnpackedFloat

variable {x : Float32}

/-- Doubling moves the exponent. Beyond the highest one there is no finite number. -/
theorem value_mul_two (finite : x.isFinite = true) (within : (x * 2).isFinite = true) :
    value (x * 2) = 2 * value x := by
  have two : value 2 = 2 := by
    have fields : fields32 2 = .finite .positive (2 ^ 23) (-22) (by decide) := rfl
    rw [value, fields, valueOf_positive]
    norm_num
  have rounded := isRounded_mul finite (by decide : (2 : Float32).isFinite = true)
  have range := rounded.isFinite_iff.mp within
  suffices kept : ∃ fields, IsRepresented .binary32 fields ∧ valueOf fields = value x * value 2 by
    obtain ⟨fields, represented, same⟩ := kept
    rw [← same] at rounded
    rw [(rounded.exact represented).2, same, two, mul_comm]
  have canonical := canonical_of_isFinite finite
  rw [two] at range ⊢
  unfold value at range ⊢
  generalize fields32 x = fields at *
  cases canonical with
  | @zero sign => exact ⟨.zero sign, .zero, by simp [valueOf]⟩
  | @finite sign mantissa exponent positive short least low full =>
    have place : (2 : ℚ) ^ (exponent + 1) = 2 ^ exponent * 2 := zpow_add_one₀ two_ne_zero _
    -- At the highest exponent the mantissa is a full one, and its double is out of range.
    have next : exponent + 1 ≤ 104 := by
      by_contra! highest
      obtain rfl : exponent = 104 := by omega
      have long : (2 : ℚ) ^ 23 ≤ mantissa := by exact_mod_cast full.resolve_right (by decide)
      rw [valueOf, signed_apply, mul_assoc, mul_assoc, abs_signed, abs_of_nonneg (by positivity),
        ← place] at range
      norm_num at range
      linarith
    have bits : |sign.apply (mantissa : ℤ)| < 2 ^ 24 := by
      cases sign <;> simpa [Sign.apply] using (by exact_mod_cast short : (mantissa : ℤ) < 2 ^ 24)
    obtain ⟨fields, represented, same⟩ := exists_isRepresented_int bits (by omega) next
    exact ⟨fields, represented, by rw [same, place, valueOf, mul_assoc]⟩

/-- Beyond what is finite there is one number that is not negative. -/
theorem fields_of_infinite (nonneg : 0 ≤ x) (beyond : ¬ x.isFinite = true) :
    fields32 x = .infinity .positive := by
  rw [nonneg_iff] at nonneg
  change ¬ (fields32 x).isFinite = true at beyond
  generalize fields32 x = fields at *
  cases nonneg with
  | zero => exact absurd rfl beyond
  | signed signed =>
    cases signed with
    | infinity => rfl
    | zero | finite => exact absurd rfl beyond

end Troupe.Number

namespace Troupe.Swap.Grid

open Float.Model (UnpackedFloat)
open Troupe.Geometry (Point)
open Troupe.Number

variable {radius : Float32}

/-! ## The reciprocal of the side -/

/-- What is known of the number of cells in a pixel: it is too large by its last bit at most, or
    else so small that no coordinate gets far with it. -/
structure IsScale (scale radius : Float32) : Prop where
  finite : scale.isFinite = true
  nonneg : 0 ≤ value scale
  most : value scale * (2 * value radius) ≤ 5 / 4
  precise : value scale * (2 * value radius) ≤ 1 + 1 / 2 ^ 24 ∨ value scale ≤ 1 / 2 ^ 125

theorem isScale_of_side {side : Float32} (finite : side.isFinite = true)
    (least : 1 / 2 ^ 23 ≤ value side) (wide : 2 * value radius ≤ value side) :
    IsScale (1 / side) radius := by
  have positive : 0 < value side := lt_of_lt_of_le (by norm_num) least
  have inverse : 0 < 1 / value side := by positivity
  have whole : 1 / value side * value side = 1 := by field_simp
  have small : 1 / value side ≤ 2 ^ 23 := by
    rw [div_le_iff₀ positive]
    linarith
  have near := near_div_max (x := 1) (by decide) finite positive.ne' (by
    rw [value_one, abs_of_pos inverse]
    linarith)
  rw [value_one, abs_of_pos inverse] at near
  obtain ⟨lower, upper⟩ := abs_le.mp near.close
  have bound {factor : ℚ} (nonneg : 0 ≤ value (1 / side))
      (le : value (1 / side) ≤ factor * (1 / value side)) :
      value (1 / side) * (2 * value radius) ≤ factor := by
    calc value (1 / side) * (2 * value radius) ≤ value (1 / side) * value side :=
          mul_le_mul_of_nonneg_left wide nonneg
      _ ≤ factor * (1 / value side) * value side := mul_le_mul_of_nonneg_right le positive.le
      _ = factor := by rw [mul_assoc, whole, mul_one]
  rcases le_total (value side) (2 ^ 126) with normal | subnormal
  -- the reciprocal is off by half of its last bit
  · have large : 1 / 2 ^ 126 ≤ 1 / value side := one_div_le_one_div_of_le positive normal
    rw [max_eq_left (by linarith)] at lower upper
    have nonneg : 0 ≤ value (1 / side) := by linarith
    have precise : value (1 / side) * (2 * value radius) ≤ 1 + 1 / 2 ^ 24 :=
      bound nonneg (by linarith)
    exact ⟨near.finite, nonneg, precise.trans (by norm_num), .inl precise⟩
  -- it has fewer bits, and is off by half of the least number there is
  · have range : value side ≤ 2 ^ 128 := by
      have limit := (abs_le.mp (abs_value_le_limit32 finite)).2
      unfold limit32 at limit
      norm_num at limit ⊢
      linarith
    have small : 1 / value side ≤ 1 / 2 ^ 126 :=
      one_div_le_one_div_of_le (by norm_num) subnormal
    have large : 1 / 2 ^ 128 ≤ 1 / value side := one_div_le_one_div_of_le positive range
    rw [max_eq_right (by linarith)] at lower upper
    have nonneg : 0 ≤ value (1 / side) := by linarith
    exact ⟨near.finite, nonneg, bound nonneg (by linarith), .inr (by linarith)⟩

theorem value_leastSide : value leastSide = 1 / 2 ^ 23 := by
  have fields : fields32 leastSide = .finite .positive (2 ^ 23) (-46) (by decide) := rfl
  rw [value, fields, valueOf_positive]
  norm_num

theorem isScale_empty (finite : radius.isFinite = true) (nonneg : 0 ≤ radius) (bucketCount : Nat) :
    IsScale (empty (radius * 2) bucketCount).cellsPerPixel radius := by
  have number : leastSide.isNaN = false := by decide
  have least : leastSide.isFinite = true := by decide
  simp only [empty, larger, number, Bool.false_eq_true, if_false]
  by_cases within : (radius * 2).isFinite = true
  · have double := value_mul_two finite within
    have order := lt_iff_value least within
    rw [value_leastSide] at order
    split
    case isTrue less => exact isScale_of_side within (order.mp less).le double.ge
    case isFalse notLess =>
      refine isScale_of_side least value_leastSide.ge ?_
      rw [value_leastSide, ← double]
      exact not_lt.mp (mt order.mpr notLess)
  -- the reciprocal of an infinite side is zero, and all positions lie in one cell
  · have infinite := fields_of_infinite
      (nonneg_mul nonneg (by decide) finite (by decide : (2 : Float32).isFinite = true)) within
    have less : leastSide < radius * 2 := by
      rw [lt_iff_compare, infinite]
      rfl
    have none : 1 / (radius * 2) = ofFields32 (.zero .positive) := by
      change ofFields32 (UnpackedFloat.div .binary32 (fields32 1) (fields32 (radius * 2))) = _
      rw [infinite]
      rfl
    have zero : value (ofFields32 (.zero .positive)) = 0 := rfl
    rw [if_pos less, none]
    refine ⟨by decide, zero.ge, ?_, .inr ?_⟩
    · rw [zero]
      norm_num
    · rw [zero]
      norm_num

/-! ## Cells -/

/-- The columns of two coordinates that are less than the radius apart. -/
theorem column_le {scale x y : Float32} (isScale : IsScale scale radius)
    (finite : x.isFinite = true) (finite' : y.isFinite = true)
    (close : |value x - value y| < value radius) :
    (floorWord (x * scale)).toInt ≤ (floorWord (y * scale)).toInt + 1 := by
  obtain ⟨scales, nonneg, most, precise⟩ := isScale
  by_cases same : x = y
  · rw [same]
    omega
  -- two coordinates that differ have a gap between them, and the gap is less than the radius
  have within {z : Float32} (finite : z.isFinite = true)
      (gap : |value z| ≤ 2 ^ 24 * |value x - value y|) :
      |value z| * value scale < 2 ^ 23 + 1 / 2 := by
    rcases precise with precise | small
    · rcases nonneg.eq_or_lt with none | positive
      · rw [← none]
        norm_num
      · calc |value z| * value scale < 2 ^ 24 * value radius * value scale :=
              mul_lt_mul_of_pos_right (by linarith) positive
          _ = 2 ^ 23 * (value scale * (2 * value radius)) := by ring
          _ ≤ 2 ^ 23 + 1 / 2 := by linarith
    · have limit := abs_value_le_limit32 finite
      calc |value z| * value scale ≤ limit32 * (1 / 2 ^ 125) :=
            mul_le_mul limit small nonneg limit32_pos.le
        _ < 2 ^ 23 + 1 / 2 := by
            unfold limit32
            norm_num
  refine floorWord_mul_le finite finite' scales nonneg
    (within finite (abs_value_le_of_ne finite finite' same))
    (within finite' ?_) ?_
  · rw [abs_sub_comm]
    exact abs_value_le_of_ne finite' finite (Ne.symm same)
  · have part := mul_le_mul_of_nonneg_right close.le nonneg
    linarith

theorem abs_column_sub_le {scale x y : Float32} (isScale : IsScale scale radius)
    (finite : x.isFinite = true) (finite' : y.isFinite = true)
    (close : |value x - value y| < value radius) :
    |(floorWord (x * scale)).toInt - (floorWord (y * scale)).toInt| ≤ 1 := by
  have ahead := column_le isScale finite finite' close
  have behind := column_le isScale finite' finite (abs_sub_comm (value x) (value y) ▸ close)
  rw [abs_le]
  omega

theorem cells_of_close {p q : Point} (finite : radius.isFinite = true) (nonneg : 0 ≤ radius)
    (finiteP : p.IsFinite) (finiteQ : q.IsFinite) (bucketCount : Nat)
    (close : p.distanceSquared q < radius * radius) :
    let grid := empty (radius * 2) bucketCount
    |(grid.cellAt p).column.toInt - (grid.cellAt q).column.toInt| ≤ 1 ∧
      |(grid.cellAt p).row.toInt - (grid.cellAt q).row.toInt| ≤ 1 := by
  have zero : value 0 = 0 := rfl
  have isScale := isScale_empty finite nonneg bucketCount
  rw [le_iff_value (by decide) finite, zero] at nonneg
  obtain ⟨alongX, alongY⟩ := Point.abs_sub_lt_of_close finiteP finiteQ finite nonneg close
  exact ⟨abs_column_sub_le isScale finiteP.1 finiteQ.1 alongX,
    abs_column_sub_le isScale finiteP.2 finiteQ.2 alongY⟩

end Troupe.Swap.Grid

namespace Troupe.Swap

open Troupe.Geometry (Point)
open Troupe.Number

theorem sub_mem_offsets {a b : Int32} (near : |a.toInt - b.toInt| ≤ 1) : b - a ∈ offsets := by
  have same : b - a = Int32.ofInt (b.toInt - a.toInt) := by
    rw [Int32.ofInt_sub, Int32.ofInt_toInt, Int32.ofInt_toInt]
  rw [same]
  obtain ⟨least, most⟩ := abs_le.mp near
  rcases (by omega : b.toInt - a.toInt = -1 ∨ b.toInt - a.toInt = 0 ∨ b.toInt - a.toInt = 1) with
    before | here | after
  · rw [before]
    decide
  · rw [here]
    decide
  · rw [after]
    decide

namespace Encounters

variable {encounters : Encounters}

/-- Two positions whose squared distance is computed to be less than the squared radius have cells
    whose columns differ by one at most, and so do their rows. -/
theorem close_cells_adjoin (encounters : Encounters) (placed : List Placed)
    (finite : encounters.radius.isFinite = true) (nonneg : 0 ≤ encounters.radius) {p q : Point}
    (finiteP : p.IsFinite) (finiteQ : q.IsFinite)
    (close : p.distanceSquared q < encounters.radius * encounters.radius) :
    let grid := encounters.gridOf placed
    |(grid.cellAt p).column.toInt - (grid.cellAt q).column.toInt| ≤ 1 ∧
      |(grid.cellAt p).row.toInt - (grid.cellAt q).row.toInt| ≤ 1 := by
  simp only [gridOf, Grid.cellAt_rebuild]
  exact Grid.cells_of_close finite nonneg finiteP finiteQ encounters.bucketCount close

/-- Two neighbours among single-precision numbers, farther out than which no two neighbours are
    closer than 80. Their products with the reciprocal are half a cell apart. -/
theorem outskirts_adjoin :
    let encounters := Encounters.new 80
    let p : Point := ⟨1073741760, 0⟩
    let q : Point := ⟨1073741696, 0⟩
    p.distanceSquared q < encounters.radius * encounters.radius ∧
      ((encounters.gridOf []).cellAt p).column = 6710886 ∧
      ((encounters.gridOf []).cellAt q).column = 6710885 ∧
      |((encounters.gridOf []).cellAt p).column.toInt -
        ((encounters.gridOf []).cellAt q).column.toInt| ≤ 1 := by
  intro encounters p q
  have close : p.distanceSquared q < encounters.radius * encounters.radius := by decide +kernel
  have finiteP : p.IsFinite := by decide +kernel
  have finiteQ : q.IsFinite := by decide +kernel
  have adjoin := close_cells_adjoin encounters [] (by decide +kernel) (by decide +kernel) finiteP
    finiteQ close
  exact ⟨close, by decide +kernel, by decide +kernel, adjoin.1⟩

/-- Close actors stand in cells side by side, wherever on a plane of finite coordinates they are. -/
theorem covered_of_isFinite (finite : encounters.radius.isFinite = true)
    (nonneg : 0 ≤ encounters.radius) {placed : List Placed}
    (placedFinite : ∀ entry ∈ placed, entry.2.IsFinite) : encounters.Covered placed := by
  intro couple listed near
  obtain ⟨listedA, listedB⟩ := mem_of_mem_couples listed
  have finiteA := placedFinite _ listedA
  have finiteB := placedFinite _ listedB
  have close := lt_of_not_le (Point.isNaN_distanceSquared finiteA finiteB)
    (isNaN_radiusSquared (isNaN_of_isFinite finite)) near
  have adjoin := Grid.cells_of_close finite nonneg finiteA finiteB encounters.bucketCount close
  simp only [gridOf, Grid.cellAt_rebuild]
  exact ⟨sub_mem_offsets adjoin.1, sub_mem_offsets adjoin.2⟩

/-- So the grid finds what a scan of all pairs finds. -/
theorem begun_perm_scan_of_isFinite (finite : encounters.radius.isFinite = true)
    (nonneg : 0 ≤ encounters.radius) {placed : List Placed}
    (distinct : (placed.map (·.1)).Nodup) (placedFinite : ∀ entry ∈ placed, entry.2.IsFinite) :
    (encounters.update placed).1.Perm (encounters.scan placed) := by
  have covered := covered_of_isFinite finite nonneg placedFinite
  have once : (encounters.update placed).1.Nodup := nodup_unseen _ _
  exact (List.perm_ext_iff_of_nodup once (nodup_scan distinct)).mpr fun _ =>
    mem_begun_iff_of_covered distinct covered

end Encounters

end Troupe.Swap
