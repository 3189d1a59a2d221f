import Mathlib
import Troupe.Proofs.Decimal.Plain
import Troupe.Proofs.Script.Params

/-! # Number fields

A number field shows a number and hands back a text. What it shows is read as the same number. What
is typed in is read in double precision first, and a numeral beyond that range is none. Below, the
ends of the ranges of amounts and counts stand for everything beyond them, so that greater numerals
are not read as less. Beyond, an amount and a count are zero.

* `shown_number_reads_back` — the text that is shown.
* `amount_of_small`, `count_of_small` — numerals in double precision.
* `amount_of_huge`, `count_of_huge` — numerals beyond.
* `amounts_in_order_iff` — when a greater numeral is read as less.
-/

namespace Troupe.Decimal

open Float.Model (UnpackedFloat Format)
open Troupe.Number

variable {numeral other : Numeral}

theorem Numeral.isNearest_toDouble (within : |numeral.value| < 2 ^ 1024 - 2 ^ 970) :
    IsNearest .binary64 numeral.value (fields64 numeral.toDouble) :=
  numeral.roundsTo_toDouble.isNearest (numeral.isFinite_toDouble_iff.mpr within)

theorem Numeral.value64_toDouble_le (within : |numeral.value| < 2 ^ 1024 - 2 ^ 970)
    (within' : |other.value| < 2 ^ 1024 - 2 ^ 970) (le : numeral.value ≤ other.value) :
    value64 numeral.toDouble ≤ value64 other.toDouble :=
  (isNearest_toDouble within).le_of_le wide_binary64 (isNearest_toDouble within') le

section Represented

variable {fields : UnpackedFloat} (represented : IsRepresented .binary64 fields)
  (within : |numeral.value| < 2 ^ 1024 - 2 ^ 970)

include represented within

/-- Rounding does not go across a number of the format. -/
theorem Numeral.le_value64_toDouble (le : valueOf fields ≤ numeral.value) :
    valueOf fields ≤ value64 numeral.toDouble :=
  represented.isNearest.le_of_le wide_binary64 (isNearest_toDouble within) le

theorem Numeral.value64_toDouble_le_valueOf (le : numeral.value ≤ valueOf fields) :
    value64 numeral.toDouble ≤ valueOf fields :=
  (isNearest_toDouble within).le_of_le wide_binary64 represented.isNearest le

end Represented

end Troupe.Decimal

namespace Troupe.Script.Params

open Troupe.Number
open Troupe.Decimal (Numeral leadingNumber? leadingNumber?_shortestText)
open Troupe.Text (skipBlanks)

variable {params : Params} {key text : String} {numeral : Numeral} {rest : List Char}

theorem number?_set {param : Param} : (params.set key param).number? key = param.asNumber? := by
  rw [number?, get?_set, if_pos rfl]
  rfl

/-! ## The text that is shown -/

/-- A number that is shown and handed back as a text is the same number, with the same sign if it is
    zero. Infinities and `NaN` are no numbers before and after. -/
theorem shown_number_reads_back (n : Float) (params : Params) (key : String) (fallback : Float32) :
    let number := Param.number n
    let shown := Param.text number.asText
    shown.asNumber? = number.asNumber? ∧ shown.asNumber? = (if n.isFinite then some n else none) ∧
      (params.set key shown).amount key = (params.set key number).amount key ∧
      (params.set key shown).count key = (params.set key number).count key ∧
      (params.set key shown).seconds key fallback =
        (params.set key number).seconds key fallback := by
  intro number shown
  have same : shown.asNumber? = number.asNumber? := leadingNumber?_shortestText n
  refine ⟨same, leadingNumber?_shortestText n, ?_, ?_, ?_⟩
  · rw [amount, amount, number?_set, number?_set, same]
  · rw [count, count, number?_set, number?_set, same]
  · rw [seconds, seconds, number?_set, number?_set, same]

/-! ## One numeral -/

theorem number?_of_scan (reads : Numeral.scan (skipBlanks text.toList) = some (numeral, rest)) :
    (params.set key (.text text)).number? key =
      if |numeral.value| < 2 ^ 1024 - 2 ^ 970 then some numeral.toDouble else none := by
  rw [number?_set, Param.asNumber?, leadingNumber?, reads]
  exact if_congr numeral.isFinite_toDouble_iff rfl rfl

section Reading

variable (reads : Numeral.scan (skipBlanks text.toList) = some (numeral, rest))

include reads

theorem amount_of_small (within : |numeral.value| < 2 ^ 1024 - 2 ^ 970) :
    (params.set key (.text text)).amount key = saturate numeral.toDouble := by
  rw [amount, number?_of_scan reads, if_pos within]

theorem amount_of_huge (beyond : 2 ^ 1024 - 2 ^ 970 ≤ |numeral.value|) :
    (params.set key (.text text)).amount key = 0 := by
  rw [amount, number?_of_scan reads, if_neg (not_lt.mpr beyond)]

theorem count_of_small (within : |numeral.value| < 2 ^ 1024 - 2 ^ 970) :
    (params.set key (.text text)).count key = min ⌊value64 numeral.toDouble⌋₊ 4294967295 := by
  have finite := numeral.isFinite_toDouble_iff.mpr within
  have positive_iff := lt64_iff_value (x := 0) (by decide +kernel) finite
  have zero : value64 0 = 0 := by
    have fields : fields64 0 = .zero .positive := rfl
    rw [value64, fields]
    rfl
  rw [zero] at positive_iff
  rw [count, number?_of_scan reads, if_pos within]
  dsimp only
  split
  case isTrue => exact toNat_toUInt32 finite
  case isFalse nonpos =>
    rw [Nat.floor_of_nonpos (not_lt.mp (mt positive_iff.mpr nonpos)), Nat.zero_min]

theorem count_of_huge (beyond : 2 ^ 1024 - 2 ^ 970 ≤ |numeral.value|) :
    (params.set key (.text text)).count key = 0 := by
  rw [count, number?_of_scan reads, if_neg (not_lt.mpr beyond)]

theorem amount_eq_largest32 (within : |numeral.value| < 2 ^ 1024 - 2 ^ 970)
    (beyond : limit32 ≤ numeral.value) :
    (params.set key (.text text)).amount key = largest32 := by
  have represented := isRepresented_of_isFinite64 (x := largest64) (by decide +kernel)
  rw [← value64_largest64] at beyond
  have above := Numeral.le_value64_toDouble represented within beyond
  rw [← value64, value64_largest64] at above
  rw [amount_of_small reads within]
  exact saturate_eq_largest32 (numeral.isFinite_toDouble_iff.mpr within) above

theorem amount_eq_neg_largest32 (within : |numeral.value| < 2 ^ 1024 - 2 ^ 970)
    (beyond : numeral.value ≤ -limit32) :
    (params.set key (.text text)).amount key = -largest32 := by
  have represented := isRepresented_of_isFinite64 (x := -largest64) (by decide +kernel)
  rw [← value64_neg_largest64] at beyond
  have below := Numeral.value64_toDouble_le_valueOf represented within beyond
  rw [← value64, value64_neg_largest64] at below
  rw [amount_of_small reads within]
  exact saturate_eq_neg_largest32 (numeral.isFinite_toDouble_iff.mpr within) below

theorem count_eq_largest (within : |numeral.value| < 2 ^ 1024 - 2 ^ 970)
    (beyond : 4294967295 ≤ numeral.value) :
    (params.set key (.text text)).count key = 4294967295 := by
  obtain ⟨fields, represented, same⟩ :=
    @exists_isRepresented .binary64 4294967295 0 (by decide) (by decide) (by decide)
  rw [zpow_zero, mul_one, Nat.cast_ofNat] at same
  have above := Numeral.le_value64_toDouble represented within (same ▸ beyond)
  rw [same] at above
  rw [count_of_small reads within]
  exact min_eq_right (Nat.le_floor (by exact_mod_cast above))

end Reading

/-! ## The order -/

section Order

variable {first second : String} {m n : Numeral} {rest' : List Char}
  (reads : Numeral.scan (skipBlanks first.toList) = some (m, rest))
  (reads' : Numeral.scan (skipBlanks second.toList) = some (n, rest'))
  (within : |m.value| < 2 ^ 1024 - 2 ^ 970) (within' : |n.value| < 2 ^ 1024 - 2 ^ 970)
  (le : m.value ≤ n.value)

include reads reads' within within' le

theorem amount_le_amount :
    (params.set key (.text first)).amount key ≤ (params.set key (.text second)).amount key := by
  rw [amount_of_small reads within, amount_of_small reads' within']
  exact saturate_le_saturate (m.isFinite_toDouble_iff.mpr within)
    (n.isFinite_toDouble_iff.mpr within') (Numeral.value64_toDouble_le within within' le)

theorem count_le_count :
    (params.set key (.text first)).count key ≤ (params.set key (.text second)).count key := by
  rw [count_of_small reads within, count_of_small reads' within']
  exact min_le_min (Nat.floor_mono (Numeral.value64_toDouble_le within within' le)) le_rfl

end Order

theorem le_of_le_abs {limit q : ℚ} (beyond : limit ≤ |q|) (above : -limit < q) : limit ≤ q := by
  rcases le_abs.mp beyond with more | less
  · exact more
  · exact absurd (le_neg.mp less) (not_le.mpr above)

/-- Of two numerals the greater one is not read as less, unless it is beyond double precision while
    the other one is read as more than zero, or the other way around below zero. A numeral beyond
    the range of amounts or counts is read as the end of that range, if it is not beyond double
    precision as well; then it is read as zero. -/
theorem amounts_in_order_iff (params : Params) (key : String) {first second : String}
    {m n : Numeral} {rest rest' : List Char}
    (reads : Numeral.scan (skipBlanks first.toList) = some (m, rest))
    (reads' : Numeral.scan (skipBlanks second.toList) = some (n, rest'))
    (le : m.value ≤ n.value) :
    let limit : ℚ := 2 ^ 1024 - 2 ^ 970
    let amount (text : String) := (params.set key (.text text)).amount key
    let count (text : String) := (params.set key (.text text)).count key
    (amount first ≤ amount second ↔
        (n.value < limit ∨ amount first ≤ 0) ∧ (-limit < m.value ∨ 0 ≤ amount second)) ∧
      (count first ≤ count second ↔ n.value < limit ∨ count first = 0) ∧
      (|n.value| < limit →
        (limit32 ≤ n.value → amount second = largest32) ∧
          (n.value ≤ -limit32 → amount second = -largest32) ∧
            (4294967295 ≤ n.value → count second = 4294967295)) ∧
      (limit ≤ |n.value| → amount second = 0 ∧ count second = 0) := by
  intro limit amount count
  refine ⟨?_, ?_, fun within => ⟨amount_eq_largest32 reads' within,
    amount_eq_neg_largest32 reads' within, count_eq_largest reads' within⟩,
    fun beyond => ⟨amount_of_huge reads' beyond, count_of_huge reads' beyond⟩⟩
  -- What is beyond double precision is read as zero, so the cases are which numerals are.
  · rcases lt_or_ge |m.value| limit with small | huge
    · have above := (abs_lt.mp small).1
      rcases lt_or_ge |n.value| limit with small' | huge'
      · exact iff_of_true (amount_le_amount reads reads' small small' le)
          ⟨.inl (abs_lt.mp small').2, .inl above⟩
      · have none : amount second = 0 := amount_of_huge reads' huge'
        have beyond := not_lt.mpr (le_of_le_abs huge' (above.trans_le le))
        rw [none]
        simp only [beyond, above, false_or, true_or, and_true]
    · have none : amount first = 0 := amount_of_huge reads huge
      rcases lt_or_ge |n.value| limit with small' | huge'
      · have below := (abs_lt.mp small').2
        have beyond : ¬ -limit < m.value := by
          rcases le_abs.mp huge with more | less
          · exact absurd (more.trans le) (not_le.mpr below)
          · exact not_lt.mpr (le_neg.mp less)
        rw [none]
        simp only [beyond, below, false_or, true_or, true_and]
      · have none' : amount second = 0 := amount_of_huge reads' huge'
        have zero : (0 : Float32) ≤ 0 := by decide
        rw [none, none']
        simp only [zero, or_true, and_true]
  · rcases lt_or_ge |m.value| limit with small | huge
    · rcases lt_or_ge |n.value| limit with small' | huge'
      · exact iff_of_true (count_le_count reads reads' small small' le)
          (.inl (abs_lt.mp small').2)
      · have none : count second = 0 := count_of_huge reads' huge'
        have beyond :=
          not_lt.mpr (le_of_le_abs huge' ((abs_lt.mp small).1.trans_le le))
        rw [none, Nat.le_zero]
        simp only [beyond, false_or]
    · have none : count first = 0 := count_of_huge reads huge
      exact iff_of_true (none ▸ Nat.zero_le _) (.inr none)

theorem two_pow_le_limit : (2 : ℚ) ^ 1023 ≤ 2 ^ 1024 - 2 ^ 970 := by
  rw [le_sub_iff_add_le]
  calc (2 : ℚ) ^ 1023 + 2 ^ 970 ≤ 2 ^ 1023 + 2 ^ 1023 :=
        add_le_add_right (pow_le_pow_right₀ one_le_two (by norm_num)) _
    _ = 2 ^ 1024 := by rw [← two_mul, ← pow_succ']

/-- A number with a hundred zeros is beyond the range of amounts, and not beyond double
    precision. -/
theorem googol_is_largest :
    ∃ (m n : Numeral) (rest rest' : List Char),
      Numeral.scan (skipBlanks "-2.5".toList) = some (m, rest) ∧
        Numeral.scan (skipBlanks " 1e100 steps".toList) = some (n, rest') ∧
          m.value ≤ n.value ∧
            let amount (text : String) := (empty.set "steps" (.text text)).amount "steps"
            let count (text : String) := (empty.set "steps" (.text text)).count "steps"
            amount "-2.5" ≤ amount " 1e100 steps" ∧ amount " 1e100 steps" = largest32 ∧
              count "-2.5" ≤ count " 1e100 steps" ∧ count " 1e100 steps" = 4294967295 := by
  let less : Numeral := ⟨some '-', ['2'], some ['5'], none⟩
  let googol : Numeral := ⟨none, ['1'], none, some ⟨'e', none, ['1', '0', '0']⟩⟩
  have reads : Numeral.scan (skipBlanks "-2.5".toList) = some (less, []) := by decide +kernel
  have reads' : Numeral.scan (skipBlanks " 1e100 steps".toList) =
      some (googol, [' ', 's', 't', 'e', 'p', 's']) := by decide +kernel
  have value : less.value = -5 / 2 := by
    have significand : less.significand = 25 := by decide
    have power : less.power = -1 := by decide
    have sign : less.signOf = .negative := rfl
    rw [Numeral.value_eq, significand, power, sign]
    norm_num [Float.Model.UnpackedFloat.Sign.apply]
  have value' : googol.value = 10 ^ 100 := by
    have significand : googol.significand = 1 := by decide
    have power : googol.power = (100 : Nat) := by decide
    have sign : googol.signOf = .positive := rfl
    rw [Numeral.value_eq, significand, power, sign, zpow_natCast]
    norm_num [Float.Model.UnpackedFloat.Sign.apply]
  have within : |googol.value| < 2 ^ 1024 - 2 ^ 970 := by
    rw [value', abs_of_pos (by positivity)]
    calc (10 : ℚ) ^ 100 < (2 ^ 4) ^ 100 := by norm_num
      _ = 2 ^ 400 := (pow_mul 2 4 100).symm
      _ ≤ 2 ^ 1023 := pow_le_pow_right₀ one_le_two (by norm_num)
      _ ≤ 2 ^ 1024 - 2 ^ 970 := two_pow_le_limit
  have positive : 0 < googol.value := by rw [value']; positivity
  have le : less.value ≤ googol.value := by rw [value]; linarith
  have above : -(2 ^ 1024 - 2 ^ 970) < less.value := by
    have large : (2 : ℚ) ^ 2 ≤ 2 ^ 1023 := pow_le_pow_right₀ one_le_two (by norm_num)
    rw [value, neg_lt]
    exact lt_of_lt_of_le (by norm_num) (large.trans two_pow_le_limit)
  obtain ⟨amounts, counts, ends, _⟩ := amounts_in_order_iff empty "steps" reads reads' le
  refine ⟨less, googol, _, _, reads, reads', le,
    amounts.mpr ⟨.inl (abs_lt.mp within).2, .inl above⟩, (ends within).1 ?_, counts.mpr (.inl (abs_lt.mp within).2), (ends within).2.2 ?_⟩
  · rw [value', limit32]
    norm_num
  · rw [value']
    norm_num

/-- Beyond double precision a numeral is read as zero, which is less than one. -/
theorem one_exceeds_beyond :
    ∃ (m n : Numeral) (rest rest' : List Char),
      Numeral.scan (skipBlanks "1".toList) = some (m, rest) ∧
        Numeral.scan (skipBlanks "1e400".toList) = some (n, rest') ∧
          m.value ≤ n.value ∧ limit32 < n.value ∧
            let amount (text : String) := (empty.set "steps" (.text text)).amount "steps"
            let count (text : String) := (empty.set "steps" (.text text)).count "steps"
            ¬ amount "1" ≤ amount "1e400" ∧ ¬ count "1" ≤ count "1e400" ∧
              amount "1e400" ≠ largest32 ∧ count "1e400" ≠ 4294967295 := by
  let one : Numeral := ⟨none, ['1'], none, none⟩
  let huge : Numeral := ⟨none, ['1'], none, some ⟨'e', none, ['4', '0', '0']⟩⟩
  have reads : Numeral.scan (skipBlanks "1".toList) = some (one, []) := by decide +kernel
  have reads' : Numeral.scan (skipBlanks "1e400".toList) = some (huge, []) := by decide +kernel
  have value : one.value = 1 := by
    have significand : one.significand = 1 := by decide
    have power : one.power = 0 := by decide
    have sign : one.signOf = .positive := rfl
    rw [Numeral.value_eq, significand, power, sign]
    norm_num [Float.Model.UnpackedFloat.Sign.apply]
  have value' : huge.value = 10 ^ 400 := by
    have significand : huge.significand = 1 := by decide
    have power : huge.power = (400 : Nat) := by decide
    have sign : huge.signOf = .positive := rfl
    rw [Numeral.value_eq, significand, power, sign, zpow_natCast, Nat.cast_one, one_mul]
    exact one_mul _
  have far : (2 : ℚ) ^ 1024 ≤ huge.value := by
    rw [value']
    calc (2 : ℚ) ^ 1024 ≤ 2 ^ 1200 := pow_le_pow_right₀ one_le_two (by norm_num)
      _ = (2 ^ 3) ^ 400 := pow_mul 2 3 400
      _ ≤ 10 ^ 400 := pow_le_pow_left₀ (by norm_num) (by norm_num) _
  have beyond : 2 ^ 1024 - 2 ^ 970 ≤ |huge.value| :=
    (sub_le_self _ (by positivity)).trans (far.trans (le_abs_self _))
  have large : limit32 < 2 ^ 1024 := by
    calc limit32 < 2 ^ 128 := by rw [limit32]; norm_num
      _ ≤ 2 ^ 1024 := pow_le_pow_right₀ one_le_two (by norm_num)
  have within : |one.value| < 2 ^ 1024 - 2 ^ 970 := by
    rw [value, abs_one]
    exact (one_lt_pow₀ one_lt_two (by norm_num)).trans_le two_pow_le_limit
  have amount' : (empty.set "steps" (.text "1e400")).amount "steps" = 0 :=
    amount_of_huge reads' beyond
  have count' : (empty.set "steps" (.text "1e400")).count "steps" = 0 :=
    count_of_huge reads' beyond
  refine ⟨one, huge, _, _, reads, reads', ?_, large.trans_le far, ?_⟩
  · rw [value, value']
    exact one_le_pow₀ (by norm_num)
  · dsimp only
    rw [amount', count']
    decide +kernel

end Troupe.Script.Params
