import Drafting.Proofs.Json.Token
import Drafting.Proofs.Number.Precision

/-! Numbers as they are written, and what they stand for.

A numeral is a sign, digits before and behind a point, and a power of ten, and it stands for a
fraction (`Numeral.value`). What is read for it is this fraction exactly where it is an
integer of 64 bits, and a floating point number near it otherwise; with no more digits than
a floating point number has, that number is the nearest one (`Numeral.Means`). This is so for
every numeral (`means_scalar`), and every numeral is read as a number up to its last
character (`isNumber_chars`). -/
namespace Drafting.Json

/-! ### Numerals -/

/-- A power of ten behind a number. -/
structure Exponent where
  /-- Marked with `E` and not with `e`. -/
  capital : Bool
  /-- The sign, where there is one (`true` is minus). -/
  sign : Option Bool
  digits : List Char
  digits_ne : digits ≠ []
  isDigit : ∀ c ∈ digits, c.isDigit = true

/-- A number as it is written. -/
structure Numeral where
  negative : Bool
  whole : List Char
  /-- The digits behind the point; there is none without them. -/
  fraction : List Char
  exponent : Option Exponent
  whole_ne : whole ≠ []
  isDigit_whole : ∀ c ∈ whole, c.isDigit = true
  isDigit_fraction : ∀ c ∈ fraction, c.isDigit = true
  /-- Only zero starts with a zero. -/
  leading : whole.head? = some '0' → whole = ['0']

namespace Exponent

/-- The sign as it is written. -/
def signChars (e : Exponent) : List Char := e.sign.elim [] fun minus => [if minus then '-' else '+']

/-- The text of an exponent. -/
def chars (e : Exponent) : List Char := (if e.capital then 'E' else 'e') :: (e.signChars ++ e.digits)

/-- The exponent as a number. -/
def power (e : Exponent) : ℤ :=
  if e.sign = some true then -(Nat.ofDigitChars 10 e.digits 0 : ℤ) else Nat.ofDigitChars 10 e.digits 0

end Exponent

namespace Numeral

/-- The text of a fraction, with its point. -/
def fractionChars (m : Numeral) : List Char := if m.fraction = [] then [] else '.' :: m.fraction

/-- The text of the exponent, if there is one. -/
def exponentChars (m : Numeral) : List Char := m.exponent.elim [] Exponent.chars

/-- The text of a numeral. -/
def chars (m : Numeral) : List Char :=
  (if m.negative then ['-'] else []) ++ (m.whole ++ (m.fractionChars ++ m.exponentChars))

/-- All digits as one number. -/
def digits (m : Numeral) : ℕ := Nat.ofDigitChars 10 (m.whole ++ m.fraction) 0

/-- The power of ten of the last digit. -/
def scale (m : Numeral) : ℤ := m.exponent.elim 0 Exponent.power - m.fraction.length

/-- The fraction that a numeral stands for. -/
def value (m : Numeral) : ℚ := (if m.negative then -1 else 1) * (m.digits * 10 ^ m.scale)

/-- Written as an integer, and one of 64 bits. Minus zero is none. -/
structure IsInteger (m : Numeral) : Prop where
  fraction : m.fraction = []
  exponent : m.exponent = none
  bits : if m.negative then 0 < m.digits ∧ m.digits ≤ 2 ^ 63 else m.digits < 2 ^ 64

/-- The floating point number nearest to what a numeral stands for. -/
def nearest (m : Numeral) : Float :=
  let x := Float.ofScientific m.digits (m.scale < 0) m.scale.natAbs
  if m.negative then -x else x

/-- What a numeral is read as stands for its value: an integer is this value, and any other number is near it. It is
the nearest one if all digits and the power of ten can be stored. -/
inductive Means (m : Numeral) : Scalar → Prop where
  | integer {n : ℤ} (written : m.IsInteger) (value : m.value = n) : Means m (.integer n)
  | float {x : Float} (written : ¬ m.IsInteger) (value : Number.StandsFor m.value x)
      (short : m.digits < 2 ^ 53 → m.scale.natAbs ≤ 22 → x = m.nearest) : Means m (.float x)

/-! ### What is read for a numeral -/

/-- The power of ten as the reader takes it. -/
def exponentRead (m : Numeral) : Option (Bool × List Char) := m.exponent.map fun e => (e.sign == some true, e.digits)

/-- The scalar that is read for a numeral. -/
def scalar (m : Numeral) : Scalar := number m.negative m.whole m.fraction m.exponentRead

/-- The floating point number that is read for a numeral. -/
def float (m : Numeral) : Float :=
  Number.ofDigits m.negative (m.whole.map digit) (m.fraction.map digit) (power m.exponentRead)

end Numeral

theorem digit_le {c : Char} (h : c.isDigit = true) : digit c ≤ 9 := by
  have hbounds : 48 ≤ c.toNat ∧ c.toNat ≤ 57 := by simpa [Char.isDigit, UInt32.le_iff_toNat_le] using h
  unfold digit
  omega

theorem appended_map_digit (n : ℕ) (ds : List Char) : Number.appended n (ds.map digit) = Nat.ofDigitChars 10 ds n :=
  List.foldl_map

namespace Numeral
variable (m : Numeral)

theorem digits_eq : m.digits = Number.appended 0 (m.whole.map digit ++ m.fraction.map digit) := by
  rw [← List.map_append, appended_map_digit, digits]

theorem scale_eq : m.scale = power m.exponentRead - (m.fraction.map digit).length := by
  rw [List.length_map, scale, exponentRead]
  rcases m.exponent with _ | ⟨_, _ | _ | _, _⟩ <;> rfl

theorem standsFor_float : Number.StandsFor m.value m.float := by
  have hwhole : ∀ d ∈ m.whole.map digit, d ≤ 9 := by
    simpa using fun c hc => digit_le (m.isDigit_whole c hc)
  have hfraction : ∀ d ∈ m.fraction.map digit, d ≤ 9 := by
    simpa using fun c hc => digit_le (m.isDigit_fraction c hc)
  rw [value, digits_eq, scale_eq]
  exact Number.ofDigits_standsFor hwhole hfraction (power m.exponentRead) m.negative

theorem float_eq_nearest (hdigits : m.digits < 2 ^ 53) (hscale : m.scale.natAbs ≤ 22) : m.float = m.nearest := by
  rw [digits_eq] at hdigits
  rw [scale_eq] at hscale
  rw [nearest, digits_eq, scale_eq]
  exact Number.ofDigits_of_short m.negative hdigits hscale

variable {m}

theorem digitsValue_whole (h : m.fraction = []) : digitsValue m.whole = m.digits := by
  rw [digits, h, List.append_nil]
  rfl

theorem scalar_of_isInteger (h : m.IsInteger) : m.scalar = .integer (if m.negative then -m.digits else m.digits) := by
  obtain ⟨hfraction, hexponent, hbits⟩ := h
  unfold scalar exponentRead number
  rw [hexponent, hfraction, digitsValue_whole hfraction]
  cases hsign : m.negative <;> rw [hsign] at hbits <;> exact if_pos hbits

theorem scalar_of_not_isInteger (h : ¬ m.IsInteger) : m.scalar = .float m.float := by
  unfold scalar number
  simp only
  split
  · rename_i hfraction hexponent hsign
    rw [digitsValue_whole hfraction, if_neg, float]
    exact fun hbits => h ⟨hfraction, Option.map_eq_none_iff.mp hexponent, by rwa [hsign]⟩
  · rename_i hfraction hexponent hsign
    rw [digitsValue_whole hfraction, if_neg, float]
    exact fun hbits => h ⟨hfraction, Option.map_eq_none_iff.mp hexponent, by rwa [hsign]⟩
  · rfl

theorem value_of_isInteger (h : m.IsInteger) : m.value = ((if m.negative then -m.digits else m.digits : ℤ) : ℚ) := by
  have hscale : m.scale = 0 := by rw [scale, h.exponent, h.fraction]; rfl
  rw [value, hscale, zpow_zero, mul_one]
  split <;> push_cast <;> ring

theorem natAbs_lt_of_isInteger (h : m.IsInteger) {n : ℤ} (hn : m.value = n) : n.natAbs < UInt64.size := by
  have hbits := h.bits
  rw [value_of_isInteger h, Int.cast_inj] at hn
  rw [← hn, UInt64.size]
  cases hsign : m.negative <;> simp only [hsign, if_true, Bool.false_eq_true, if_false] at hbits ⊢ <;> omega

/-- **What is read for a numeral stands for its value.** -/
theorem means_scalar (m : Numeral) : m.Means m.scalar := by
  by_cases h : m.IsInteger
  · rw [scalar_of_isInteger h]
    exact .integer h (value_of_isInteger h)
  · rw [scalar_of_not_isInteger h]
    exact .float h m.standsFor_float m.float_eq_nearest

end Numeral

/-! ### Reading numerals -/

theorem exponentSign_digit {c : Char} (h : c.isDigit = true) (cs : List Char) :
    exponentSign (c :: cs) = (false, c :: cs) := by
  rw [exponentSign]
  all_goals
    rintro rest ⟨⟩
    cases h

theorem exponentSign_chars (e : Exponent) : exponentSign (e.signChars ++ e.digits) = (e.sign == some true, e.digits) := by
  obtain ⟨_, _ | _ | _, digits, hne, hdigit⟩ := e
  · obtain ⟨c, cs, rfl⟩ := List.exists_cons_of_ne_nil hne
    exact exponentSign_digit (hdigit c List.mem_cons_self) cs
  · rfl
  · rfl

theorem exponent?_chars (e : Exponent) : exponent? e.chars = some (some (e.sign == some true, e.digits), []) := by
  have hmark : (if e.capital then 'E' else 'e') = 'e' ∨ (if e.capital then 'E' else 'e') = 'E' := by
    cases e.capital <;> decide
  rw [Exponent.chars, exponent?_eq, if_pos hmark, exponentSign_chars, digits_eq_self e.isDigit, if_neg (by simpa using e.digits_ne)]

namespace Numeral
variable (m : Numeral)

theorem exponent?_exponentChars : exponent? m.exponentChars = some (m.exponentRead, []) := by
  rw [exponentChars, exponentRead]
  cases m.exponent with
  | none => rfl
  | some e => exact exponent?_chars e

theorem undigited_exponentChars : Undigited m.exponentChars := by
  rw [exponentChars]
  cases m.exponent with
  | none => nofun
  | some e =>
    rintro c hc
    cases hc
    cases e.capital <;> rfl

theorem point_exponentChars (rest : List Char) : m.exponentChars ≠ '.' :: rest := by
  rw [exponentChars]
  cases m.exponent with
  | none => nofun
  | some e =>
    rintro h
    have hmark := (List.cons.inj h).1
    revert hmark
    cases e.capital <;> decide

theorem fraction?_chars : fraction? (m.fractionChars ++ m.exponentChars) = some (m.fraction, m.exponentChars) := by
  unfold fractionChars
  split
  · rename_i hnone
    rw [List.nil_append, hnone, fraction?]
    intro rest hpoint
    exact absurd (m.point_exponentChars rest) (by simpa using hpoint)
  · rename_i hfraction
    rw [List.cons_append, fraction?, digits_of_isDigit m.isDigit_fraction m.undigited_exponentChars,
      if_neg (by simpa using hfraction)]

theorem undigited_fractionChars : Undigited (m.fractionChars ++ m.exponentChars) := by
  unfold fractionChars
  split
  · exact m.undigited_exponentChars
  · rintro c hc
    cases hc
    rfl

theorem whole?_chars {rest : List Char} (hrest : Undigited rest) : whole? (m.whole ++ rest) = some (m.whole, rest) := by
  by_cases hzero : m.whole.head? = some '0'
  · rw [m.leading hzero]
    rfl
  · rw [whole?]
    · rw [digits_of_isDigit m.isDigit_whole hrest, if_neg (by simpa using m.whole_ne)]
    · intro rest' hstart
      obtain ⟨c, cs, hwhole⟩ := List.exists_cons_of_ne_nil m.whole_ne
      rw [hwhole, List.cons_append, List.cons.injEq] at hstart
      exact hzero (by rw [hwhole, hstart.1]; rfl)

/-- A numeral is read to its end. -/
theorem isNumber_chars : IsNumber m.chars m.scalar [] := by
  have hunsigned : unsigned? m.negative (m.whole ++ (m.fractionChars ++ m.exponentChars)) = some (m.scalar, []) := by
    rw [unsigned?_eq, whole?_chars m m.undigited_fractionChars, Option.bind_some, fraction?_chars, Option.bind_some,
      exponent?_exponentChars]
    rfl
  unfold chars
  generalize m.whole ++ (m.fractionChars ++ m.exponentChars) = cs at hunsigned
  cases hsign : m.negative <;> rw [hsign] at hunsigned
  · exact .inl hunsigned
  · exact .inr ⟨cs, rfl, hunsigned⟩

end Numeral

end Drafting.Json
