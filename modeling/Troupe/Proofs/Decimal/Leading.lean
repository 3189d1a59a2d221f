import Mathlib
import Troupe.Proofs.Decimal.Rounding
import Troupe.Proofs.Decimal.Scan

/-! # The number at the start of a text

The longest numeral after the blanks is what a text is read as. Its value is rounded once, and if
that leads to infinity there is no number.

* `Numeral.value` — the exact value of a numeral.
* `Numeral.roundsTo_toDouble` — its value in double precision.
* `leadingNumber?_reads_longest_numeral` — the value of a text.
-/

namespace Troupe.Decimal

open Float.Model (UnpackedFloat Format)
open Float.Model.UnpackedFloat
open Troupe.Number
open Troupe.Text (skipBlanks)

/-! ## Values of numerals -/

def Numeral.signOf (n : Numeral) : Sign :=
  if n.isNegative then .negative else .positive

/-- The rational number that a numeral stands for. -/
def Numeral.value (n : Numeral) : ℚ :=
  let whole : ℚ := Nat.ofDigitChars 10 n.whole 0
  let fraction : ℚ :=
    Nat.ofDigitChars 10 (n.fraction.getD []) 0 / 10 ^ (n.fraction.getD []).length
  let magnitude := (whole + fraction) * 10 ^ (n.exponent.map Exponent.value).getD 0
  if n.isNegative then -magnitude else magnitude

/-- With the point moved to the end, a numeral is a whole number times a power of ten. -/
theorem Numeral.value_eq (n : Numeral) :
    n.value = (n.signOf.apply 1 : ℤ) * (n.significand * 10 ^ n.power) := by
  have shift : (10 : ℚ) ^ n.power = 10 ^ (n.exponent.map Exponent.value).getD 0 /
      10 ^ (n.fraction.getD []).length := by
    rw [Numeral.power, zpow_sub₀ (by norm_num), zpow_natCast]
  have digits : (n.significand : ℚ) =
      10 ^ (n.fraction.getD []).length * Nat.ofDigitChars 10 n.whole 0 +
        Nat.ofDigitChars 10 (n.fraction.getD []) 0 := by
    rw [Numeral.significand, Nat.ofDigitChars_append, Nat.ofDigitChars_eq_ofDigitChars_zero]
    push_cast
    rfl
  rw [Numeral.value, shift, digits, Numeral.signOf]
  cases n.isNegative <;> simp [Sign.apply] <;> field_simp

theorem Numeral.roundsTo_toDouble (n : Numeral) :
    RoundsTo .binary64 n.signOf n.value (fields64 n.toDouble) := by
  have power : (if decide (n.power < 0) then -(n.power.natAbs : ℤ) else n.power.natAbs) =
      n.power := by
    split
    case isTrue negative =>
      have below := of_decide_eq_true negative
      omega
    case isFalse notNegative =>
      have above := mt decide_eq_true notNegative
      omega
  have rounds := roundsTo_ofScientific n.significand (n.power < 0) n.power.natAbs
  rw [power] at rounds
  rw [Numeral.value_eq, Numeral.toDouble, Numeral.signOf]
  cases n.isNegative with
  | false => simpa [Sign.apply] using rounds
  | true =>
    have turned := rounds.neg
    rw [← turned.unpack_pack_eq] at turned
    change RoundsTo _ .negative _ (fields64 (-Float.ofScientific _ _ _)) at turned
    simpa [Sign.apply] using turned

theorem Numeral.isFinite_toDouble_iff (n : Numeral) :
    n.toDouble.isFinite = true ↔ |n.value| < 2 ^ 1024 - 2 ^ 970 :=
  overflowBound_binary64 ▸ n.roundsTo_toDouble.isFinite_iff

/-! ## The number at the start of a text -/

/-- Without a numeral after the blanks there is no number. Otherwise the longest one, which takes
    one byte for each character, is read as the one numeral that it is the text of, and the number
    is its value after correct rounding, if that is not infinite. -/
theorem leadingNumber?_reads_longest_numeral (text : String) :
    ((∀ word ∈ numerals, ¬word <+: skipBlanks text.toList) → leadingNumber? text = none) ∧
      ∀ word ∈ numerals, word <+: skipBlanks text.toList →
        (∀ other ∈ numerals, other <+: skipBlanks text.toList → other.length ≤ word.length) →
          (∀ c ∈ word, c.utf8Size = 1) ∧
            ∃ (n : Numeral) (rest : List Char), n.IsWellFormed ∧ n.chars = word ∧
              (∀ m : Numeral, m.IsWellFormed → m.chars = word → m = n) ∧
              Numeral.scan (skipBlanks text.toList) = some (n, rest) ∧
              skipBlanks text.toList = word ++ rest ∧
              RoundsTo .binary64 n.signOf n.value (fields64 n.toDouble) ∧
              leadingNumber? text =
                if |n.value| < 2 ^ 1024 - 2 ^ 970 then some n.toDouble else none := by
  constructor
  · intro without
    rw [leadingNumber?, Numeral.scan_eq_none_iff.mpr without]
  · intro word member starts longest
    refine ⟨utf8Size_of_mem_numerals member, ?_⟩
    obtain ⟨⟨n, rest⟩, scans⟩ : ∃ result, Numeral.scan (skipBlanks text.toList) = some result := by
      refine Option.ne_none_iff_exists'.mp fun none => ?_
      exact Numeral.scan_eq_none_iff.mp none word member starts
    obtain ⟨wellFormed, split⟩ := Numeral.scan_sound scans
    obtain ⟨listed, _, longer⟩ := Numeral.scan_longest scans
    have same : n.chars = word := by
      have shorter := longest n.chars listed (split ▸ List.prefix_append _ _)
      exact ((longer word member starts).eq_of_length_le shorter).symm
    refine ⟨n, rest, wellFormed, same, fun m other sameText => ?_, scans, same ▸ split,
      n.roundsTo_toDouble, ?_⟩
    · have read := Numeral.scan_chars other
      rw [sameText, ← same, Numeral.scan_chars wellFormed] at read
      cases read
      rfl
    · rw [leadingNumber?, scans]
      exact if_congr n.isFinite_toDouble_iff rfl rfl

/-- The unit does not belong to the numeral, and the exponent does. -/
theorem leadingNumber?_of_degrees :
    let text := "  -3.5e1deg"
    let word := ['-', '3', '.', '5', 'e', '1']
    word ∈ numerals ∧ word <+: skipBlanks text.toList ∧
      (∀ other ∈ numerals, other <+: skipBlanks text.toList → other.length ≤ word.length) ∧
        ∃ n : Numeral, n.chars = word ∧ n.value = -35 ∧
          RoundsTo .binary64 n.signOf n.value (fields64 n.toDouble) ∧
            leadingNumber? text = some n.toDouble := by
  intro text word
  let degrees : Numeral := ⟨some '-', ['3'], some ['5'], some ⟨'e', none, ['1']⟩⟩
  have skips : skipBlanks text.toList = word ++ ['d', 'e', 'g'] := by decide +kernel
  have scans : Numeral.scan (skipBlanks text.toList) = some (degrees, ['d', 'e', 'g']) := by
    rw [skips]
    decide
  obtain ⟨member, _, longest⟩ := Numeral.scan_longest scans
  obtain ⟨wellFormed, _⟩ := Numeral.scan_sound scans
  have starts : word <+: skipBlanks text.toList := skips ▸ List.prefix_append _ _
  have value : degrees.value = -35 := by
    have significand : degrees.significand = 35 := by decide
    have power : degrees.power = 0 := by decide
    have sign : degrees.signOf = .negative := rfl
    rw [Numeral.value_eq, significand, power, sign]
    norm_num [Sign.apply]
  obtain ⟨_, n, _, _, same, only, _, _, rounds, reads⟩ :=
    (leadingNumber?_reads_longest_numeral text).2 word member starts
      fun other listed starts => (longest other listed starts).length_le
  obtain rfl := only degrees wellFormed rfl
  have within : |degrees.value| < 2 ^ 1024 - 2 ^ 970 := by
    have split : (2 : ℚ) ^ 1024 = 2 ^ 54 * 2 ^ 970 := by rw [← pow_add]
    have large : (1 : ℚ) ≤ 2 ^ 970 := one_le_pow₀ one_le_two
    rw [value, split]
    generalize (2 : ℚ) ^ 970 = scale at large
    norm_num
    linarith
  rw [if_pos within] at reads
  exact ⟨member, starts, fun other listed starts => (longest other listed starts).length_le,
    degrees, same, value, rounds, reads⟩

end Troupe.Decimal
