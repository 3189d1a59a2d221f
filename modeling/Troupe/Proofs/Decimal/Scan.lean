import Mathlib.Computability.Language
import Troupe.Decimal.Numeral

/-! # The longest numeral

Numerals are the words of a regular grammar. Scanning a text goes once through it and hands an
exponent back that has no digits. It finds a numeral whenever one is a prefix of the text, and the
one that it finds is the longest: every part of another one ends where the part of it that has been
scanned ends, or before.

* `numerals` — the grammar.
* `mem_numerals_iff` — its words are the texts of well-formed numerals.
* `Numeral.scan_eq_none_iff`, `Numeral.scan_longest` — what scanning finds.
-/

namespace Troupe.Decimal

open scoped Computability

/-! ## The grammar -/

def digit : Language Char :=
  {word | ∃ c, c.isDigit = true ∧ word = [c]}

/-- One digit or more. -/
def digits : Language Char :=
  digit * digit∗

def signs : Language Char :=
  {['+'], ['-']}

def exponents : Language Char :=
  {['e'], ['E']} * (1 + signs) * digits

/-- Digits with at most one point, and at least one digit on either side of it. -/
def magnitudes : Language Char :=
  digits * (1 + {['.']} * digit∗) + {['.']} * digits

def numerals : Language Char :=
  (1 + signs) * magnitudes * (1 + exponents)

/-! ## Parts of a numeral -/

def fractionChars : Option (List Char) → List Char
  | none => []
  | some digits => '.' :: digits

def exponentChars : Option Exponent → List Char
  | none => []
  | some exponent => exponent.chars

theorem Numeral.chars_eq (n : Numeral) :
    n.chars =
      n.sign.toList ++ (n.whole ++ (fractionChars n.fraction ++ exponentChars n.exponent)) := by
  obtain ⟨sign, whole, fraction, exponent⟩ := n
  cases fraction <;> cases exponent <;> simp [chars, fractionChars, exponentChars]

def IsDigits (word : List Char) : Prop :=
  ∀ c ∈ word, c.isDigit = true

def IsSign (sign : Option Char) : Prop :=
  ∀ c ∈ sign, c = '+' ∨ c = '-'

structure Exponent.IsWellFormed (e : Exponent) : Prop where
  mark : e.mark = 'e' ∨ e.mark = 'E'
  sign : IsSign e.sign
  digits : IsDigits e.digits
  some : e.digits ≠ []

structure Numeral.IsWellFormed (n : Numeral) : Prop where
  sign : IsSign n.sign
  whole : IsDigits n.whole
  fraction : IsDigits (n.fraction.getD [])
  some : n.whole ≠ [] ∨ n.fraction.getD [] ≠ []
  exponent : ∀ e ∈ n.exponent, e.IsWellFormed

variable {word rest tail text : List Char}

theorem mem_digit_star_iff : word ∈ digit∗ ↔ IsDigits word := by
  rw [Language.mem_kstar]
  constructor
  · rintro ⟨words, rfl, all⟩ c member
    obtain ⟨word, listed, within⟩ := List.mem_flatten.mp member
    obtain ⟨d, isDigit, rfl⟩ := all word listed
    exact List.mem_singleton.mp within ▸ isDigit
  · intro all
    refine ⟨word.map fun c => [c], (List.flatMap_singleton' word).symm, fun single member => ?_⟩
    obtain ⟨c, listed, rfl⟩ := List.mem_map.mp member
    exact ⟨c, all c listed, rfl⟩

theorem mem_digits_iff : word ∈ digits ↔ IsDigits word ∧ word ≠ [] := by
  rw [digits, Language.mem_mul]
  simp only [mem_digit_star_iff]
  constructor
  · rintro ⟨_, ⟨c, isDigit, rfl⟩, rest, all, rfl⟩
    exact ⟨List.forall_mem_cons.mpr ⟨isDigit, all⟩, List.cons_ne_nil _ _⟩
  · rintro ⟨all, some⟩
    obtain ⟨c, rest, rfl⟩ := List.exists_cons_of_ne_nil some
    obtain ⟨isDigit, all⟩ := List.forall_mem_cons.mp all
    exact ⟨[c], ⟨c, isDigit, rfl⟩, rest, all, rfl⟩

theorem mem_optional_signs_iff : word ∈ 1 + signs ↔ ∃ sign, IsSign sign ∧ sign.toList = word := by
  rw [Language.mem_add]
  constructor
  · rintro (rfl | rfl | rfl)
    · exact ⟨none, nofun, rfl⟩
    · exact ⟨some '+', by simp [IsSign], rfl⟩
    · exact ⟨some '-', by simp [IsSign], rfl⟩
  · rintro ⟨_ | c, isSign, rfl⟩
    · exact .inl rfl
    · rcases isSign c rfl with rfl | rfl
      · exact .inr (.inl rfl)
      · exact .inr (.inr rfl)

theorem mem_exponents_iff :
    word ∈ exponents ↔ ∃ e : Exponent, e.IsWellFormed ∧ e.chars = word := by
  simp only [exponents, Language.mem_mul, mem_optional_signs_iff, mem_digits_iff]
  constructor
  · rintro ⟨_, ⟨_, marked, _, ⟨sign, isSign, rfl⟩, rfl⟩, digits, ⟨all, some⟩, rfl⟩
    rcases marked with rfl | rfl
    · exact ⟨⟨'e', sign, digits⟩, ⟨.inl rfl, isSign, all, some⟩, rfl⟩
    · exact ⟨⟨'E', sign, digits⟩, ⟨.inr rfl, isSign, all, some⟩, rfl⟩
  · rintro ⟨⟨mark, sign, digits⟩, ⟨marked, isSign, all, some⟩, rfl⟩
    refine ⟨[mark] ++ sign.toList, ⟨[mark], ?_, _, ⟨sign, isSign, rfl⟩, rfl⟩,
      digits, ⟨all, some⟩, rfl⟩
    rcases marked with rfl | rfl
    · exact .inl rfl
    · exact .inr rfl

theorem mem_optional_exponents_iff :
    word ∈ 1 + exponents ↔
      ∃ e : Option Exponent, (∀ e' ∈ e, e'.IsWellFormed) ∧ exponentChars e = word := by
  rw [Language.mem_add, mem_exponents_iff]
  constructor
  · rintro (rfl | ⟨e, wellFormed, rfl⟩)
    · exact ⟨none, nofun, rfl⟩
    · exact ⟨some e, by simpa using wellFormed, rfl⟩
  · rintro ⟨_ | e, wellFormed, rfl⟩
    · exact .inl rfl
    · exact .inr ⟨e, wellFormed e rfl, rfl⟩

theorem mem_magnitudes_iff :
    word ∈ magnitudes ↔
      ∃ (whole : List Char) (fraction : Option (List Char)), IsDigits whole ∧
        IsDigits (fraction.getD []) ∧ (whole ≠ [] ∨ fraction.getD [] ≠ []) ∧
          whole ++ fractionChars fraction = word := by
  simp only [magnitudes, Language.mem_add, Language.mem_mul, mem_digits_iff, mem_digit_star_iff]
  constructor
  · rintro (⟨whole, ⟨all, some⟩, _, rfl | ⟨_, rfl, fraction, digits, rfl⟩, rfl⟩ |
      ⟨_, rfl, fraction, ⟨all, some⟩, rfl⟩)
    · exact ⟨whole, none, all, nofun, .inl some, rfl⟩
    · exact ⟨whole, .some fraction, all, digits, .inl some, rfl⟩
    · exact ⟨[], .some fraction, nofun, all, .inr some, rfl⟩
  · rintro ⟨whole, fraction, all, digits, some, rfl⟩
    cases fraction with
    | none => exact .inl ⟨whole, ⟨all, some.resolve_right (· rfl)⟩, [], .inl rfl, rfl⟩
    | some fraction =>
      by_cases vanishes : whole = []
      · subst vanishes
        exact .inr ⟨['.'], rfl, fraction, ⟨digits, some.resolve_left (· rfl)⟩, rfl⟩
      · exact .inl ⟨whole, ⟨all, vanishes⟩, _, .inr ⟨['.'], rfl, fraction, digits, rfl⟩, rfl⟩

theorem mem_numerals_iff :
    word ∈ numerals ↔ ∃ n : Numeral, n.IsWellFormed ∧ n.chars = word := by
  simp only [numerals, Language.mem_mul, mem_optional_signs_iff, mem_magnitudes_iff,
    mem_optional_exponents_iff]
  constructor
  · rintro ⟨_, ⟨_, ⟨sign, isSign, rfl⟩, _, ⟨whole, fraction, all, digits, some, rfl⟩, rfl⟩, _,
      ⟨exponent, wellFormed, rfl⟩, rfl⟩
    refine ⟨⟨sign, whole, fraction, exponent⟩, ⟨isSign, all, digits, some, wellFormed⟩, ?_⟩
    simp only [Numeral.chars_eq, List.append_assoc]
  · rintro ⟨⟨sign, whole, fraction, exponent⟩, ⟨isSign, all, digits, some, wellFormed⟩, rfl⟩
    refine ⟨_, ⟨_, ⟨sign, isSign, rfl⟩, _, ⟨whole, fraction, all, digits, some, rfl⟩, rfl⟩, _,
      ⟨exponent, wellFormed, rfl⟩, ?_⟩
    simp only [Numeral.chars_eq, List.append_assoc]

/-! ## Parts of a text -/

theorem not_sign_of_isDigit {c : Char} (isDigit : c.isDigit = true) : c ≠ '+' ∧ c ≠ '-' := by
  constructor <;> rintro rfl <;> cases isDigit

theorem scanSign_cases (text : List Char) :
    IsSign (scanSign text).1 ∧ text = (scanSign text).1.toList ++ (scanSign text).2 := by
  unfold scanSign
  split <;> simp [IsSign]

/-- A sign in front of something else is the one that is read. -/
theorem scanSign_append {sign : Option Char} (isSign : IsSign sign)
    (unsigned : ∃ c ∈ tail.head?, c ≠ '+' ∧ c ≠ '-') :
    scanSign (sign.toList ++ tail) = (sign, tail) := by
  obtain ⟨first, ahead, noPlus, noMinus⟩ := unsigned
  obtain ⟨rest, rfl⟩ := List.head?_eq_some_iff.mp ahead
  cases sign with
  | none => simp [scanSign, noPlus, noMinus]
  | some c => rcases isSign c rfl with rfl | rfl <;> simp [scanSign]

theorem scanSign_of_append_isPrefix {sign : Option Char} (isSign : IsSign sign)
    (unsigned : ∃ c ∈ tail.head?, c ≠ '+' ∧ c ≠ '-') (starts : sign.toList ++ tail <+: text) :
    (scanSign text).1 = sign ∧ tail <+: (scanSign text).2 := by
  obtain ⟨first, ahead, other⟩ := unsigned
  obtain ⟨rest, rfl⟩ := List.head?_eq_some_iff.mp ahead
  obtain ⟨after, rfl⟩ := starts
  rw [List.append_assoc, scanSign_append isSign ⟨first, rfl, other⟩]
  exact ⟨rfl, List.prefix_append _ _⟩

theorem scanDigits_eq (text : List Char) :
    scanDigits text = (text.takeWhile Char.isDigit, text.dropWhile Char.isDigit) :=
  List.span_eq_takeWhile_dropWhile ..

theorem scanDigits_cases (text : List Char) :
    IsDigits (scanDigits text).1 ∧ text = (scanDigits text).1 ++ (scanDigits text).2 := by
  rw [scanDigits_eq]
  exact ⟨List.all_eq_true.mp List.all_takeWhile, List.takeWhile_append_dropWhile.symm⟩

theorem scanDigits_append (all : IsDigits word) (other : ∀ c ∈ tail.head?, c.isDigit = false) :
    scanDigits (word ++ tail) = (word, tail) := by
  rw [scanDigits_eq, List.takeWhile_append_of_pos all, List.dropWhile_append_of_pos all]
  cases tail with
  | nil => simp
  | cons c tail => simp [other c rfl]

/-- Digits in front of something else are all those that are read, and digits that nothing follows
    are some of them. -/
theorem scanDigits_of_append_isPrefix (all : IsDigits word)
    (other : ∀ c ∈ tail.head?, c.isDigit = false) (starts : word ++ tail <+: text) :
    (scanDigits text).1 = word ∧ tail <+: (scanDigits text).2 ∨
      tail = [] ∧ word <+: (scanDigits text).1 := by
  rw [scanDigits_eq]
  -- by induction on the digits, since more of them may follow in the text
  induction word generalizing text with
  | nil =>
    cases tail with
    | nil => exact .inr ⟨rfl, List.nil_prefix⟩
    | cons c tail =>
      obtain ⟨rest, rfl⟩ := starts
      left
      simp [other c rfl]
  | cons c word ih =>
    obtain ⟨rest, rfl⟩ := starts
    obtain ⟨isDigit, all⟩ := List.forall_mem_cons.mp all
    simpa [isDigit] using ih all (List.prefix_append _ rest)

theorem scanDigits_of_isPrefix (all : IsDigits word) (starts : word <+: text) :
    word <+: (scanDigits text).1 := by
  rw [← List.append_nil word] at starts
  rcases scanDigits_of_append_isPrefix all (by simp) starts with ⟨same, _⟩ | ⟨_, longer⟩
  · rw [same]
  · exact longer

theorem scanFraction_cases (text : List Char) :
    IsDigits ((scanFraction text).1.getD []) ∧
      text = fractionChars (scanFraction text).1 ++ (scanFraction text).2 := by
  unfold scanFraction
  split
  case h_1 rest =>
    obtain ⟨all, same⟩ := scanDigits_cases rest
    exact ⟨all, congrArg (List.cons '.') same⟩
  case h_2 => exact ⟨nofun, rfl⟩

theorem scanFraction_append {fraction : Option (List Char)} (all : IsDigits (fraction.getD []))
    (other : ∀ c ∈ tail.head?, c.isDigit = false ∧ c ≠ '.') :
    scanFraction (fractionChars fraction ++ tail) = (fraction, tail) := by
  cases fraction with
  | none =>
    cases tail with
    | nil => rfl
    | cons c tail => simp [fractionChars, scanFraction, (other c rfl).2]
  | some digits =>
    have read : scanDigits (digits ++ tail) = (digits, tail) :=
      scanDigits_append all fun c first => (other c first).1
    simp [fractionChars, scanFraction, read]

theorem scanFraction_of_append_isPrefix {fraction : Option (List Char)}
    (all : IsDigits (fraction.getD [])) (other : ∀ c ∈ tail.head?, c.isDigit = false ∧ c ≠ '.')
    (starts : fractionChars fraction ++ tail <+: text) :
    (scanFraction text).1 = fraction ∧ tail <+: (scanFraction text).2 ∨
      tail = [] ∧ fractionChars fraction <+: fractionChars (scanFraction text).1 := by
  cases fraction with
  | none =>
    cases tail with
    | nil => exact .inr ⟨rfl, List.nil_prefix⟩
    | cons c tail =>
      obtain ⟨rest, rfl⟩ := starts
      obtain ⟨_, noPoint⟩ := other c rfl
      left
      simp [fractionChars, scanFraction, noPoint]
  | some digits =>
    obtain ⟨rest, rfl⟩ := starts
    have starts : digits ++ tail <+: digits ++ tail ++ rest := List.prefix_append _ rest
    simpa [fractionChars, scanFraction] using
      scanDigits_of_append_isPrefix all (fun c first => (other c first).1) starts

theorem isExponentMark_iff (c : Char) : isExponentMark c = true ↔ c = 'e' ∨ c = 'E' := by
  simp [isExponentMark]

theorem scanExponent_cases (text : List Char) :
    (∀ e ∈ (scanExponent text).1, e.IsWellFormed) ∧
      text = exponentChars (scanExponent text).1 ++ (scanExponent text).2 := by
  cases text with
  | nil => exact ⟨nofun, rfl⟩
  | cons mark rest =>
    rw [scanExponent]
    split
    case isTrue marked =>
      obtain ⟨isSign, parts⟩ := scanSign_cases rest
      obtain ⟨all, more⟩ := scanDigits_cases (scanSign rest).2
      dsimp only
      split
      case isTrue => exact ⟨nofun, rfl⟩
      case isFalse some =>
        have wellFormed : (⟨mark, (scanSign rest).1, (scanDigits (scanSign rest).2).1⟩ :
            Exponent).IsWellFormed :=
          ⟨(isExponentMark_iff mark).mp marked, isSign, all, by simpa using some⟩
        refine ⟨by simpa using wellFormed, ?_⟩
        simp only [exponentChars, Exponent.chars, List.cons_append, List.append_assoc]
        rw [← more, ← parts]
    case isFalse => exact ⟨nofun, rfl⟩

theorem scanExponent_exponentChars {exponent : Option Exponent}
    (wellFormed : ∀ e ∈ exponent, e.IsWellFormed) :
    scanExponent (exponentChars exponent) = (exponent, []) := by
  cases exponent with
  | none => rfl
  | some e =>
    obtain ⟨mark, sign, digits⟩ := e
    obtain ⟨marked, isSign, all, some⟩ := wellFormed _ rfl
    have signed := scanSign_append isSign
      ⟨_, List.head?_eq_some_head some, not_sign_of_isDigit (all _ (List.head_mem some))⟩
    have read : scanDigits (digits ++ []) = (digits, []) := scanDigits_append all (by simp)
    rw [List.append_nil] at read
    simp [exponentChars, Exponent.chars, scanExponent, (isExponentMark_iff mark).mpr marked,
      signed, read, some]

/-- An exponent that a text starts with is one with a digit, so it is not handed back. -/
theorem scanExponent_of_isPrefix {exponent : Option Exponent}
    (wellFormed : ∀ e ∈ exponent, e.IsWellFormed) (starts : exponentChars exponent <+: text) :
    exponentChars exponent <+: exponentChars (scanExponent text).1 := by
  cases exponent with
  | none => exact List.nil_prefix
  | some e =>
    obtain ⟨mark, sign, digits⟩ := e
    obtain ⟨marked, isSign, all, some⟩ := wellFormed _ rfl
    obtain ⟨after, rfl⟩ := starts
    obtain ⟨same, digitsStart⟩ := scanSign_of_append_isPrefix isSign
      ⟨_, List.head?_eq_some_head some, not_sign_of_isDigit (all _ (List.head_mem some))⟩
      (List.prefix_append (sign.toList ++ digits) after)
    have longer := scanDigits_of_isPrefix all digitsStart
    -- the digits that are read are as many at least, so there is one
    have read : (scanDigits (scanSign (sign.toList ++ digits ++ after)).2).1 ≠ [] :=
      fun none => some (List.prefix_nil.mp (none ▸ longer))
    simp only [exponentChars, Exponent.chars, List.cons_append, scanExponent,
      (isExponentMark_iff mark).mpr marked, if_true, List.isEmpty_iff, read, if_false, same]
    exact List.cons_prefix_cons.mpr ⟨rfl, (List.prefix_append_right_inj _).mpr longer⟩

/-! ## Whole numerals -/

theorem Numeral.scan_eq (text : List Char) :
    Numeral.scan text =
      let sign := scanSign text
      let whole := scanDigits sign.2
      let fraction := scanFraction whole.2
      let exponent := scanExponent fraction.2
      if whole.1 ≠ [] ∨ fraction.1.getD [] ≠ [] then
        some (⟨sign.1, whole.1, fraction.1, exponent.1⟩, exponent.2)
      else none := by
  simp only [Numeral.scan, Bool.and_eq_true, List.isEmpty_iff, ← not_and_or, ite_not]

theorem Numeral.scan_sound {n : Numeral} (scans : Numeral.scan text = some (n, rest)) :
    n.IsWellFormed ∧ text = n.chars ++ rest := by
  obtain ⟨isSign, signed⟩ := scanSign_cases text
  obtain ⟨all, whole⟩ := scanDigits_cases (scanSign text).2
  obtain ⟨digits, fraction⟩ := scanFraction_cases (scanDigits (scanSign text).2).2
  obtain ⟨wellFormed, exponent⟩ :=
    scanExponent_cases (scanFraction (scanDigits (scanSign text).2).2).2
  rw [Numeral.scan_eq] at scans
  dsimp only at scans
  split at scans
  case isTrue some =>
    cases scans
    refine ⟨⟨isSign, all, digits, some, wellFormed⟩, ?_⟩
    simp only [Numeral.chars_eq, List.append_assoc]
    rw [← exponent, ← fraction, ← whole, ← signed]
  case isFalse => cases scans

theorem head_exponentChars {e : Option Exponent} (wellFormed : ∀ e' ∈ e, e'.IsWellFormed) :
    ∀ c ∈ (exponentChars e).head?, c.isDigit = false ∧ c ≠ '.' := by
  cases e with
  | none => simp [exponentChars]
  | some e => rcases (wellFormed e rfl).mark with mark | mark <;>
      simp [exponentChars, Exponent.chars, mark]

theorem head_fractionChars (fraction : Option (List Char)) {e : Option Exponent}
    (wellFormed : ∀ e' ∈ e, e'.IsWellFormed) :
    ∀ c ∈ (fractionChars fraction ++ exponentChars e).head?, c.isDigit = false := by
  cases fraction with
  | none => exact fun c first => (head_exponentChars wellFormed c first).1
  | some => simp [fractionChars]

/-- A numeral without its sign starts with a digit or with the point. -/
theorem exists_head_unsigned {whole : List Char} {fraction : Option (List Char)}
    (all : IsDigits whole) (some : whole ≠ [] ∨ fraction.getD [] ≠ []) (tail : List Char) :
    ∃ c ∈ (whole ++ (fractionChars fraction ++ tail)).head?, c ≠ '+' ∧ c ≠ '-' := by
  cases whole with
  | nil =>
    cases fraction with
    | none => simp at some
    | some => exact ⟨'.', rfl, by decide, by decide⟩
  | cons d whole => exact ⟨d, rfl, not_sign_of_isDigit (all d List.mem_cons_self)⟩

theorem eq_none_of_fractionChars {fraction : Option (List Char)}
    (ends : fractionChars fraction = []) : fraction = none := by
  cases fraction with
  | none => rfl
  | some => cases ends

theorem getD_isPrefix_of_fractionChars {first second : Option (List Char)}
    (shorter : fractionChars first <+: fractionChars second) :
    first.getD [] <+: second.getD [] := by
  cases first with
  | none => exact List.nil_prefix
  | some digits =>
    cases second with
    | none => exact absurd (List.prefix_nil.mp shorter) (List.cons_ne_nil _ _)
    | some => exact (List.cons_prefix_cons.mp shorter).2

/-- Reading undoes writing, so a word of the grammar is the text of one numeral only. -/
theorem Numeral.scan_chars {n : Numeral} (wellFormed : n.IsWellFormed) :
    Numeral.scan n.chars = some (n, []) := by
  obtain ⟨isSign, all, digits, some, marked⟩ := wellFormed
  rw [Numeral.scan_eq, Numeral.chars_eq, scanSign_append isSign (exists_head_unsigned all some _)]
  dsimp only
  rw [scanDigits_append all (head_fractionChars n.fraction marked)]
  dsimp only
  rw [scanFraction_append digits (head_exponentChars marked)]
  dsimp only
  rw [scanExponent_exponentChars marked, if_pos some]

/-- The numeral that a text starts with is found, or a longer one. The parts of both are compared
    one after the other: they are the same until the shorter one ends. -/
theorem Numeral.scan_of_isPrefix {m : Numeral} (wellFormed : m.IsWellFormed)
    (starts : m.chars <+: text) :
    ∃ n rest, Numeral.scan text = some (n, rest) ∧ m.chars <+: n.chars := by
  obtain ⟨isSign, all, digits, some, marked⟩ := wellFormed
  simp only [Numeral.chars_eq] at starts ⊢
  obtain ⟨sign, starts⟩ :=
    scanSign_of_append_isPrefix isSign (exists_head_unsigned all some _) starts
  rcases scanDigits_of_append_isPrefix all (head_fractionChars m.fraction marked) starts with
    ⟨whole, starts⟩ | ⟨ends, shorter⟩
  · rcases scanFraction_of_append_isPrefix digits (head_exponentChars marked) starts with
      ⟨fraction, starts⟩ | ⟨ends, shorter⟩
    -- all is the same up to the exponent
    · have longer := scanExponent_of_isPrefix marked starts
      refine ⟨_, _, (Numeral.scan_eq text).trans (if_pos (by rwa [whole, fraction])), ?_⟩
      rw [sign, whole, fraction]
      simpa only [List.prefix_append_right_inj] using longer
    -- it ends with the fraction, and more digits may be read there
    · have found := some.imp_right (getD_isPrefix_of_fractionChars shorter).ne_nil
      refine ⟨_, _, (Numeral.scan_eq text).trans (if_pos (by rwa [whole])), ?_⟩
      rw [sign, whole, ends, List.append_nil]
      simpa only [List.prefix_append_right_inj] using shorter.trans (List.prefix_append _ _)
  -- it ends with the whole digits
  · obtain ⟨noFraction, noExponent⟩ := List.append_eq_nil_iff.mp ends
    have nonempty : m.whole ≠ [] :=
      some.resolve_right (· (by rw [eq_none_of_fractionChars noFraction]; rfl))
    refine ⟨_, _, (Numeral.scan_eq text).trans (if_pos (.inl (shorter.ne_nil nonempty))), ?_⟩
    rw [sign, noFraction, noExponent, List.append_nil, List.append_nil]
    simpa only [List.prefix_append_right_inj] using shorter.trans (List.prefix_append _ _)

/-! ## Results -/

theorem utf8Size_of_isDigit {c : Char} (isDigit : c.isDigit = true) : c.utf8Size = 1 := by
  simp only [Char.isDigit, Bool.and_eq_true, decide_eq_true_eq] at isDigit
  have low : c.val ≤ 0x7f := UInt32.le_trans isDigit.2 (by decide)
  rw [Char.utf8Size]
  exact if_pos low

/-- Every character of a numeral takes one byte, so characters and bytes are counted alike. -/
theorem utf8Size_of_mem_numerals (member : word ∈ numerals) : ∀ c ∈ word, c.utf8Size = 1 := by
  obtain ⟨n, ⟨isSign, all, digits, _, marked⟩, rfl⟩ := mem_numerals_iff.mp member
  have signed {sign : Option Char} (isSign : IsSign sign) : ∀ c ∈ sign.toList, c.utf8Size = 1 := by
    intro c listed
    rcases isSign c (Option.mem_toList.mp listed) with rfl | rfl <;> decide
  rw [Numeral.chars_eq]
  simp only [List.forall_mem_append]
  refine ⟨signed isSign, fun c listed => utf8Size_of_isDigit (all c listed), ?_, ?_⟩
  · cases fraction : n.fraction with
    | none => simp [fractionChars]
    | some word =>
      rw [fraction] at digits
      exact List.forall_mem_cons.mpr
        ⟨by decide, fun c listed => utf8Size_of_isDigit (digits c listed)⟩
  · cases exponent : n.exponent with
    | none => simp [exponentChars]
    | some e =>
      obtain ⟨mark, isSign, all, _⟩ := marked e exponent
      refine List.forall_mem_cons.mpr ⟨by rcases mark with mark | mark <;> rw [mark] <;> decide, ?_⟩
      exact List.forall_mem_append.mpr
        ⟨signed isSign, fun c listed => utf8Size_of_isDigit (all c listed)⟩

theorem Numeral.scan_eq_none_iff :
    Numeral.scan text = none ↔ ∀ word ∈ numerals, ¬word <+: text := by
  constructor
  · intro none word member starts
    obtain ⟨m, wellFormed, rfl⟩ := mem_numerals_iff.mp member
    obtain ⟨n, rest, scans, _⟩ := Numeral.scan_of_isPrefix wellFormed starts
    rw [none] at scans
    cases scans
  · intro without
    by_contra some
    obtain ⟨⟨n, rest⟩, scans⟩ := Option.ne_none_iff_exists'.mp some
    obtain ⟨wellFormed, rfl⟩ := Numeral.scan_sound scans
    exact without _ (mem_numerals_iff.mpr ⟨n, wellFormed, rfl⟩) (List.prefix_append _ _)

theorem Numeral.scan_longest {n : Numeral} (scans : Numeral.scan text = some (n, rest)) :
    n.chars ∈ numerals ∧ text = n.chars ++ rest ∧
      ∀ word ∈ numerals, word <+: text → word <+: n.chars := by
  obtain ⟨wellFormed, same⟩ := Numeral.scan_sound scans
  refine ⟨mem_numerals_iff.mpr ⟨n, wellFormed, rfl⟩, same, fun word member starts => ?_⟩
  obtain ⟨m, wellFormed, rfl⟩ := mem_numerals_iff.mp member
  obtain ⟨_, _, scans', longer⟩ := Numeral.scan_of_isPrefix wellFormed starts
  rw [scans] at scans'
  cases scans'
  exact longer

end Troupe.Decimal
