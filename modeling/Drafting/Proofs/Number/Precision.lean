import Drafting.Number.Text
import Drafting.Proofs.Number.Congruence
import Drafting.Proofs.Number.Root

/-! How near a number that is read comes to what is written.

A number is made in three steps that round: the digits become a floating point
number, so does a power of ten, and one is multiplied or divided by the other. Each of them
is off by one unit of the last place at most (`Rounds`). Some exponents take two
divisions. After that nothing is left of 64 bits but zero or the least positive number, so a third
one adds no error. Together this is less than one part in `2 ^ 49`, and four of the least
numbers where a number is too small to have all its bits (`ofDigits_standsFor`). Digits that can be stored,
with a power of ten that can, are rounded once and read exactly as the nearest number (`ofDigits_of_short`). An
integer of 64 bits that becomes a floating point number is near it as well (`standsFor_ofInt`). -/
namespace Drafting.Number

open Float.Model (UnpackedFloat Format)
open Float.Model.UnpackedFloat

/-! ### One rounding -/

/-- The least positive number. -/
def least : ℚ := 2 ^ (-1074 : ℤ)

/-- What one rounding is off by at most. -/
def unit (q : ℚ) : ℚ := max (q / 2 ^ 52) least

/-- Zero, or a positive number. -/
def Unsigned (u : UnpackedFloat) : Prop := u = .zero .positive ∨ ∃ m e hm, u = .finite .positive m e hm

/-- What a number comes to when it is rounded and stored: a number a unit away at most, or an infinite one if it is
too large. -/
def Rounds (q : ℚ) (u : UnpackedFloat) : Prop :=
  (Unsigned u ∧ |size u - q| ≤ unit q) ∨ (u = .infinity .positive ∧ scaled (2 ^ 52) 972 ≤ q + unit q)

theorem Unsigned.size_nonneg {u : UnpackedFloat} (h : Unsigned u) : 0 ≤ size u := by
  rcases h with rfl | ⟨m, e, _, rfl⟩
  · exact le_rfl
  · exact scaled_nonneg m e

theorem least_pos : 0 < least := two_zpow_pos _

theorem unit_pos (q : ℚ) : 0 < unit q := least_pos.trans_le (le_max_right ..)

theorem rounds_zero {q : ℚ} {u : UnpackedFloat} (hq : q = 0) (hu : u = .zero .positive) :
    Rounds q (Float.Model.pack u).unpack := by
  subst hq hu
  refine .inl ⟨.inl rfl, ?_⟩
  show |size (.zero .positive) - 0| ≤ unit 0
  have hsize : size (.zero .positive) = 0 := rfl
  rw [hsize, sub_zero, abs_zero]
  exact (unit_pos 0).le

section Rounding
variable {m : ℕ} {e : ℤ} {q : ℚ}

theorem scaled_one_le_unit (h : 2 ^ 52 ≤ m ∨ e = -1074) (hq : scaled m e ≤ q) : scaled 1 e ≤ unit q := by
  rcases h with hbits | rfl
  · refine le_trans ?_ (le_max_left ..)
    rw [le_div_iff₀ (by positivity)]
    calc scaled 1 e * 2 ^ 52 = scaled (2 ^ 52) e := by
          rw [scaled, scaled]
          push_cast
          ring
      _ ≤ scaled m e := scaled_le_scaled.mpr hbits
      _ ≤ q := hq
  · refine le_trans (le_of_eq ?_) (le_max_right ..)
    rw [scaled, Nat.cast_one, one_mul, least]

/-- **Rounding is off by one unit at most.** -/
theorem rounds_round (accuracy : Accuracy) (h : 2 ^ 52 ≤ m ∨ e ≤ -1074) (hlow : scaled m e ≤ q)
    (hhigh : q < scaled (m + 1) e) :
    Rounds q (Float.Model.pack (roundWithAccuracy Format.binary64 .positive m e accuracy)).unpack := by
  obtain ⟨_, _, hbits⟩ := excess_spec h
  obtain ⟨r, hdown, hup, hsize⟩ := size_round .positive accuracy h
  obtain ⟨hcanonical, hshape⟩ := canonical_round .positive accuracy h
  generalize roundWithAccuracy Format.binary64 .positive m e accuracy = u at hsize hcanonical hshape
  have hbelow : scaled (m / 2 ^ excess m e) (e + excess m e) ≤ q := (scaled_div_bounds m (excess m e) e).1.trans hlow
  have habove : q < scaled (m / 2 ^ excess m e + 1) (e + excess m e) := by
    refine hhigh.trans_le ?_
    rw [← scaled_mul_two_pow, scaled_le_scaled]
    exact Nat.lt_mul_of_div_lt (Nat.lt_succ_self _) (Nat.two_pow_pos _)
  have hclose : |size u - q| ≤ unit q := by
    refine le_trans ?_ (scaled_one_le_unit hbits hbelow)
    have hlower := scaled_le_scaled (e := e + excess m e).mpr hdown
    have hupper := scaled_le_scaled (e := e + excess m e).mpr hup
    have hnext : scaled (m / 2 ^ excess m e + 1) (e + excess m e) =
        scaled (m / 2 ^ excess m e) (e + excess m e) + scaled 1 (e + excess m e) := by
      rw [scaled, scaled, scaled]
      push_cast
      ring
    rw [hsize, abs_le]
    constructor <;> linarith
  rcases hshape with rfl | ⟨m', e', hm, rfl⟩
  · exact .inl ⟨.inl rfl, hclose⟩
  · by_cases hfits : e' ≤ 971
    · rw [unpack_pack hcanonical hfits]
      exact .inl ⟨.inr ⟨m', e', hm, rfl⟩, hclose⟩
    · refine .inr ⟨unpack_pack_of_large (not_le.mp hfits), ?_⟩
      have hbits' : 2 ^ 52 ≤ m' := hcanonical.2.2.resolve_right (by omega)
      have hlarge : scaled (2 ^ 52) 972 ≤ scaled m' e' := by
        rw [scaled_eq_shifted (show (972 : ℤ) ≤ e' by omega), scaled_le_scaled]
        exact hbits'.trans (Nat.le_mul_of_pos_right m' (Nat.two_pow_pos _))
      have hdistance := (abs_le.mp hclose).2
      have hsize' : size (.finite .positive m' e' hm) = scaled m' e' := rfl
      linarith

theorem rounds_exact (h : 2 ^ 52 ≤ m ∨ e ≤ -1074) (hq : q = scaled m e) :
    Rounds q (Float.Model.pack (roundWithAccuracy Format.binary64 .positive m e .exact)).unpack :=
  rounds_round .exact h hq.ge (hq.trans_lt (scaled_lt_scaled.mpr (Nat.lt_succ_self m)))

end Rounding

/-! ### Operations -/

section Operations
variable {x y : Float} (hx : Unsigned x.toModel.unpack) (hy : Unsigned y.toModel.unpack)
include hx hy

/-- A product is rounded once. -/
theorem rounds_mul : Rounds (size x.toModel.unpack * size y.toModel.unpack) (x * y).toModel.unpack := by
  have hcanonical : Canonical x.toModel.unpack := canonical_unpack _
  have hcanonical' : Canonical y.toModel.unpack := canonical_unpack _
  show Rounds _ (Float.Model.pack (mul Format.binary64 x.toModel.unpack y.toModel.unpack)).unpack
  generalize x.toModel.unpack = u at *
  generalize y.toModel.unpack = v at *
  rcases hx with rfl | ⟨m, e, hm, rfl⟩ <;> rcases hy with rfl | ⟨n, b, hn, rfl⟩
  · exact rounds_zero (zero_mul 0) rfl
  · exact rounds_zero (zero_mul _) rfl
  · exact rounds_zero (mul_zero _) rfl
  · refine rounds_exact ?_ (scaled_mul m n e b)
    have hlow := hcanonical.2.1
    have hlow' := hcanonical'.2.1
    rcases hcanonical.2.2 with hbits | hend
    · exact .inl (hbits.trans (Nat.le_mul_of_pos_right m hn))
    · rcases hcanonical'.2.2 with hbits | hend'
      · exact .inl (hbits.trans (Nat.le_mul_of_pos_left n hm))
      · exact .inr (by omega)

/-- A quotient is rounded once. -/
theorem rounds_div (hpos : 0 < size y.toModel.unpack) :
    Rounds (size x.toModel.unpack / size y.toModel.unpack) (x / y).toModel.unpack := by
  show Rounds _ (Float.Model.pack (div Format.binary64 x.toModel.unpack y.toModel.unpack)).unpack
  generalize x.toModel.unpack = u at *
  generalize y.toModel.unpack = v at *
  rcases hy with rfl | ⟨n, b, hn, rfl⟩
  · exact absurd hpos (lt_irrefl 0)
  rcases hx with rfl | ⟨m, e, hm, rfl⟩
  · exact rounds_zero (zero_div _) rfl
  let target : ℤ := min (e - b) (max (m.log2 + 1 + e - (n.log2 + 1 + b) - 53) (-1074))
  let shift : ℕ := (e - b - target).toNat
  show Rounds (scaled m e / scaled n b) (Float.Model.pack
    (roundWithAccuracy Format.binary64 .positive ((m <<< shift) / n) target _)).unpack
  have htarget : target ≤ e - b ∧ (target ≤ m.log2 + 1 + e - (n.log2 + 1 + b) - 53 ∨ target ≤ -1074) := by omega
  have hquotient : scaled m e / scaled n b = (m * 2 ^ shift : ℕ) / n * 2 ^ target := by
    have hsum : e = b + target + shift := by omega
    rw [scaled, scaled, hsum, zpow_add₀ two_ne_zero, zpow_add₀ two_ne_zero, zpow_natCast]
    have hn' : (n : ℚ) ≠ 0 := Nat.cast_ne_zero.mpr hn.ne'
    have hb := (two_zpow_pos b).ne'
    push_cast
    field_simp
  rw [Nat.shiftLeft_eq, hquotient]
  refine rounds_round _ ?_ ?_ ?_
  · refine htarget.2.imp_left fun hbits => (Nat.le_div_iff_mul_le hn).mpr ?_
    calc 2 ^ 52 * n ≤ 2 ^ 52 * 2 ^ (n.log2 + 1) := Nat.mul_le_mul_left _ Nat.lt_log2_self.le
      _ = 2 ^ (52 + (n.log2 + 1)) := (Nat.pow_add ..).symm
      _ ≤ 2 ^ (m.log2 + shift) := Nat.pow_le_pow_right (by decide) (by omega)
      _ = 2 ^ m.log2 * 2 ^ shift := Nat.pow_add ..
      _ ≤ m * 2 ^ shift := Nat.mul_le_mul_right _ (Nat.log2_self_le hm.ne')
  · exact mul_le_mul_of_nonneg_right Nat.cast_div_le (two_zpow_pos target).le
  · refine mul_lt_mul_of_pos_right ?_ (two_zpow_pos target)
    rw [div_lt_iff₀ (Nat.cast_pos.mpr hn)]
    exact_mod_cast Nat.lt_mul_of_div_lt (Nat.lt_succ_self _) hn

end Operations

/-- A whole number of 64 bits is rounded once. -/
theorem rounds_toFloat {n : ℕ} (hn : n < UInt64.size) : Rounds n n.toUInt64.toFloat.toModel.unpack := by
  have hround : n.toUInt64.toFloat.toModel.unpack =
      (Float.Model.pack (UnpackedFloat.normalize Format.binary64 (n.toUInt64.toNat : ℤ) 0 .positive)).unpack := rfl
  have hread : n.toUInt64.toNat = n := Nat.mod_eq_of_lt hn
  rw [hround, hread]
  rcases Nat.eq_zero_or_pos n with rfl | hpos
  · exact rounds_zero Nat.cast_zero rfl
  · let target : ℤ := max (n.log2 + 1 + 0 - 53) (-1074)
    let shift : ℕ := (0 - target).toNat
    have hnormalize : UnpackedFloat.normalize Format.binary64 (n : ℤ) 0 .positive =
        roundWithAccuracy Format.binary64 .positive (n <<< shift) (0 - shift) .exact := by
      rw [UnpackedFloat.normalize, compare_gt_iff_gt.mpr (Int.natCast_pos.mpr hpos)]
      rfl
    have hvalue : scaled n 0 = scaled (n <<< shift) (0 - shift) := by
      rw [Nat.shiftLeft_eq, scaled_mul_two_pow, sub_add_cancel]
    rw [hnormalize]
    refine rounds_exact (.inl ?_) (by rw [← hvalue, scaled, zpow_zero, mul_one])
    rw [Nat.shiftLeft_eq]
    calc 2 ^ 52 ≤ 2 ^ (n.log2 + shift) := Nat.pow_le_pow_right (by decide) (by omega)
      _ = 2 ^ n.log2 * 2 ^ shift := Nat.pow_add ..
      _ ≤ n * 2 ^ shift := Nat.mul_le_mul_right _ (Nat.log2_self_le hpos.ne')

/-- A whole number with a power of ten is rounded once. -/
theorem rounds_ofScientific {m k : ℕ} (hm : 0 < m) (hk : k ≤ 308) :
    Rounds (m * 10 ^ k) (Float.Model.pack (ofScientific Format.binary64 m (Int.ofNat k))).unpack := by
  have hround : ofScientific Format.binary64 m (Int.ofNat k) =
      roundWithAccuracy Format.binary64 .positive (m <<< 53 * 10 ^ k) (-53 + 0) .exact := by
    rw [ofScientific, dif_neg hm.ne', if_neg (by simp; omega), if_neg (by simp; omega), if_pos (by simp)]
    rfl
  rw [hround, Nat.shiftLeft_eq]
  refine rounds_exact (.inl ?_) ?_
  · calc 2 ^ 52 ≤ 2 ^ 53 := by decide
      _ ≤ m * 2 ^ 53 := Nat.le_mul_of_pos_left _ hm
      _ ≤ m * 2 ^ 53 * 10 ^ k := Nat.le_mul_of_pos_right _ (Nat.pow_pos (by decide))
  · rw [scaled]
    push_cast
    norm_num
    ring

/-- A power of ten is rounded once. -/
theorem rounds_powerOfTen {k : ℕ} (hk : k ≤ 308) : Rounds (10 ^ k) (powerOfTen k).toModel.unpack := by
  have hmodel : powerOfTen k = .ofModel (.ofScientific 1 (Int.ofNat k)) := by
    by_cases hsmall : k < 23
    · have hexact : ∀ k < 23, powerOfTen k = .ofModel (.ofScientific 1 (Int.ofNat k)) := by decide +kernel
      exact hexact k hsmall
    · rw [powerOfTen, Float.ofScientific, dif_neg (by omega)]
      rfl
  have hround := rounds_ofScientific Nat.one_pos hk
  rw [Nat.cast_one, one_mul] at hround
  rw [hmodel]
  exact hround

/-! ### Errors that add up -/

/-- The number is not negative, and off from `q` by some part of `q` and a bit more. -/
structure Near (part more q : ℚ) (x : Float) : Prop where
  unsigned : Unsigned x.toModel.unpack
  close : |size x.toModel.unpack - q| ≤ part * q + more

/-- Infinite numbers begin beyond the powers of ten that there are. -/
theorem lt_limit : (10 : ℚ) ^ 308 * (3 / 2) < scaled (2 ^ 52) 972 := by
  have hless : scaled (10 ^ 308 * 3) (-1) < scaled (2 ^ 52) 972 := by
    rw [scaled_eq_shifted (m := 2 ^ 52) (show (-1 : ℤ) ≤ 972 by decide), scaled_lt_scaled]
    decide +kernel
  refine lt_of_eq_of_lt ?_ hless
  rw [scaled, Nat.cast_mul, Nat.cast_pow, Nat.cast_ofNat, Nat.cast_ofNat, mul_assoc]
  norm_num

/-- A number of 64 bits is far below them. -/
theorem two_pow_lt_limit : (2 : ℚ) ^ 100 < scaled (2 ^ 52) 972 := by
  calc (2 : ℚ) ^ 100 < 10 ^ 100 := by norm_num
    _ ≤ 10 ^ 308 := pow_le_pow_right₀ (by norm_num) (by norm_num)
    _ ≤ 10 ^ 308 * (3 / 2) := le_mul_of_one_le_right (by positivity) (by norm_num)
    _ < scaled (2 ^ 52) 972 := lt_limit

theorem least_lt : least < 1 / 2 ^ 100 := by
  calc least < 2 ^ (-100 : ℤ) := zpow_lt_zpow_right₀ (by norm_num) (by norm_num)
    _ = 1 / 2 ^ 100 := by norm_num

theorem unit_le {q : ℚ} (h : 0 ≤ q) : unit q ≤ q / 2 ^ 52 + least :=
  max_le (le_add_of_nonneg_right least_pos.le) (le_add_of_nonneg_left (by positivity))

/-- Numbers from one on have all their bits. -/
theorem unit_of_one_le {q : ℚ} (h : 1 ≤ q) : unit q = q / 2 ^ 52 := by
  refine max_eq_left (least_lt.le.trans ?_)
  rw [div_le_div_iff₀ (by positivity) (by positivity)]
  norm_num
  linarith

/-- What is not too large is rounded to a number. -/
theorem Rounds.of_le {q : ℚ} {u : UnpackedFloat} (h : Rounds q u) (hsmall : q ≤ 2 ^ 80) :
    Unsigned u ∧ |size u - q| ≤ unit q := by
  refine h.resolve_right fun ⟨_, hlarge⟩ => ?_
  have hunit : unit q ≤ 2 ^ 80 := max_le (by linarith) (least_lt.le.trans (by norm_num))
  have hlimit := two_pow_lt_limit
  generalize scaled (2 ^ 52) 972 = limit at hlimit hlarge
  linarith

theorem near_toFloat {n : ℕ} (hn : n < UInt64.size) : Near (1 / 2 ^ 52) 0 n n.toUInt64.toFloat := by
  rcases Nat.eq_zero_or_pos n with rfl | hpos
  · refine ⟨.inl rfl, ?_⟩
    have hsize : size (0 : ℕ).toUInt64.toFloat.toModel.unpack = 0 := rfl
    rw [hsize]
    norm_num
  · have hone : (1 : ℚ) ≤ n := by exact_mod_cast hpos
    have hbound : (n : ℚ) < 2 ^ 64 := by exact_mod_cast hn
    obtain ⟨hunsigned, hclose⟩ := (rounds_toFloat hn).of_le (by linarith)
    rw [unit_of_one_le hone] at hclose
    exact ⟨hunsigned, hclose.trans_eq (by ring)⟩

theorem near_powerOfTen {k : ℕ} (hk : k ≤ 308) : Near (1 / 2 ^ 52) 0 (10 ^ k) (powerOfTen k) := by
  have hone : (1 : ℚ) ≤ 10 ^ k := one_le_pow₀ (by norm_num)
  rcases rounds_powerOfTen hk with ⟨hunsigned, hclose⟩ | ⟨_, hlarge⟩
  · refine ⟨hunsigned, hclose.trans_eq ?_⟩
    rw [unit_of_one_le hone]
    ring
  · rw [unit_of_one_le hone] at hlarge
    have hpower : (10 : ℚ) ^ k ≤ 10 ^ 308 := pow_le_pow_right₀ (by norm_num) hk
    have hlimit := lt_limit
    generalize (10 : ℚ) ^ 308 = top at hpower hlimit
    linarith

section Errors
variable {part more q r : ℚ}

/-- A quotient of numbers that are a bit off. -/
theorem div_error {x y d : ℚ} (hd : 0 ≤ d) (hd' : d ≤ 1 / 8) (hq : 0 ≤ q) (hr : 1 ≤ r) (hpart : 0 ≤ part)
    (hmore : 0 ≤ more) (hx : |x - q| ≤ part * q + more) (hy : |y - r| ≤ d * r) :
    |x / y - q / r| ≤ ((part + d) * (q / r) + more) * (1 + 2 * d) := by
  have hr' : 0 < r := by linarith
  have hge : (1 - d) * r ≤ y := by
    have hlow := (abs_le.mp hy).1
    linarith
  have hpos : 0 < y := lt_of_lt_of_le (mul_pos (by linarith) hr') hge
  have hcross : |x * r - q * y| ≤ ((part + d) * q + more) * r := by
    have hsplit : x * r - q * y = (x - q) * r - q * (y - r) := by ring
    have hfirst : |(x - q) * r| ≤ (part * q + more) * r := by
      rw [abs_mul, abs_of_pos hr']
      exact mul_le_mul_of_nonneg_right hx hr'.le
    have hsecond : |q * (y - r)| ≤ q * (d * r) := by
      rw [abs_mul, abs_of_nonneg hq]
      exact mul_le_mul_of_nonneg_left hy hq
    rw [hsplit]
    refine (abs_sub _ _).trans ?_
    linarith
  have hinverse : 1 / y ≤ (1 + 2 * d) / r := by
    rw [div_le_div_iff₀ hpos hr']
    have hscaled := mul_le_mul_of_nonneg_left hge (show 0 ≤ 1 + 2 * d by linarith)
    have hspare : 0 ≤ d * (1 - 2 * d) * r := mul_nonneg (mul_nonneg hd (by linarith)) hr'.le
    linarith
  have hquotient : x / y - q / r = (x * r - q * y) / r * (1 / y) := by
    field_simp
  rw [hquotient, abs_mul, abs_div, abs_of_pos hr', abs_of_pos (one_div_pos.mpr hpos)]
  calc |x * r - q * y| / r * (1 / y) ≤ ((part + d) * q + more) * r / r * ((1 + 2 * d) / r) :=
        mul_le_mul (div_le_div_of_nonneg_right hcross hr'.le) hinverse (by positivity) (by positivity)
    _ = ((part + d) * (q / r) + more / r) * (1 + 2 * d) := by
        field_simp
    _ ≤ ((part + d) * (q / r) + more) * (1 + 2 * d) := by
        refine mul_le_mul_of_nonneg_right ?_ (by positivity)
        linarith [div_le_self hmore hr]

/-- A rounding adds its unit to what was off before. -/
theorem error_of_unit {stored exact meant off : ℚ} (hexact : 0 ≤ exact) (hstored : |stored - exact| ≤ unit exact)
    (hoff : |exact - meant| ≤ off) : |stored - meant| ≤ off + (meant + off) / 2 ^ 52 + least := by
  have hunit := unit_le hexact
  have hbelow := (abs_le.mp hoff).2
  calc |stored - meant| ≤ |stored - exact| + |exact - meant| := abs_sub_le _ _ _
    _ ≤ unit exact + off := add_le_add hstored hoff
    _ ≤ off + (meant + off) / 2 ^ 52 + least := by linarith

variable {x y : Float}

/-- A division adds three parts in `2 ^ 52`, and the least number. -/
theorem Near.div (hx : Near part more q x) (hy : Near (1 / 2 ^ 52) 0 r y) (hpart : 0 ≤ part) (hpart' : part ≤ 1 / 8)
    (hmore : 0 ≤ more) (hmore' : more ≤ 1) (hq : 0 ≤ q) (hq' : q ≤ 2 ^ 64) (hr : 1 ≤ r) :
    Near (part + 3 / 2 ^ 52) (2 * more + least) (q / r) (x / y) := by
  have hclose := hy.close
  rw [add_zero] at hclose
  have hpos : 0 < size y.toModel.unpack := by
    have hlow := (abs_le.mp hclose).1
    linarith
  have hexact := div_error (by norm_num) (by norm_num) hq hr hpart hmore hx.close hclose
  have hnonneg : 0 ≤ size x.toModel.unpack / size y.toModel.unpack := div_nonneg hx.unsigned.size_nonneg hpos.le
  have hround := rounds_div hx.unsigned hy.unsigned hpos
  have hmeant : 0 ≤ q / r := div_nonneg hq (by linarith)
  have hmeant' : q / r ≤ 2 ^ 64 := (div_le_self hq hr).trans hq'
  have hshare : part * (q / r) ≤ 1 / 8 * (q / r) := mul_le_mul_of_nonneg_right hpart' hmeant
  have hbelow := (abs_le.mp hexact).2
  obtain ⟨hunsigned, hstored⟩ := hround.of_le (by linarith)
  refine ⟨hunsigned, (error_of_unit hnonneg hstored hexact).trans ?_⟩
  linarith

/-- A product of numbers that are a bit off. -/
theorem mul_error {x y d : ℚ} (hd : 0 ≤ d) (hq : 0 ≤ q) (hr : 0 ≤ r) (hx : |x - q| ≤ d * q) (hy : |y - r| ≤ d * r) :
    |x * y - q * r| ≤ (2 * d + d * d) * (q * r) := by
  have hsplit : x * y - q * r = (x - q) * (y - r) + (x - q) * r + q * (y - r) := by ring
  have hboth : |(x - q) * (y - r)| ≤ d * q * (d * r) := by
    rw [abs_mul]
    exact mul_le_mul hx hy (abs_nonneg _) (by positivity)
  have hfirst : |(x - q) * r| ≤ d * q * r := by
    rw [abs_mul, abs_of_nonneg hr]
    exact mul_le_mul_of_nonneg_right hx hr
  have hsecond : |q * (y - r)| ≤ q * (d * r) := by
    rw [abs_mul, abs_of_nonneg hq]
    exact mul_le_mul_of_nonneg_left hy hq
  rw [hsplit]
  calc |(x - q) * (y - r) + (x - q) * r + q * (y - r)|
      ≤ |(x - q) * (y - r)| + |(x - q) * r| + |q * (y - r)| := abs_add_three _ _ _
    _ ≤ d * q * (d * r) + d * q * r + q * (d * r) := add_le_add (add_le_add hboth hfirst) hsecond
    _ = (2 * d + d * d) * (q * r) := by ring

/-- What a product makes is near, or infinite because it is too large. -/
theorem Near.mul_powerOfTen (hx : Near (1 / 2 ^ 52) 0 q x) (hq : 0 ≤ q) {k : ℕ} (hk : k ≤ 308) :
    Near (4 / 2 ^ 52) least (q * 10 ^ k) (x * powerOfTen k) ∨
      (x * powerOfTen k).toModel.unpack = .infinity .positive ∧ 10 ^ 308 ≤ q * 10 ^ k := by
  have hy := near_powerOfTen hk
  have hclose := hx.close
  have hclose' := hy.close
  rw [add_zero] at hclose hclose'
  have hexact := mul_error (by norm_num) hq (by positivity) hclose hclose'
  have hnonneg := mul_nonneg hx.unsigned.size_nonneg hy.unsigned.size_nonneg
  have hmeant : 0 ≤ q * 10 ^ k := by positivity
  rcases rounds_mul hx.unsigned hy.unsigned with ⟨hunsigned, hstored⟩ | ⟨hinfinite, hlarge⟩
  · refine .inl ⟨hunsigned, (error_of_unit hnonneg hstored hexact).trans ?_⟩
    generalize q * 10 ^ k = meant at hmeant
    norm_num
    linarith
  · refine .inr ⟨hinfinite, ?_⟩
    have hunit := unit_le hnonneg
    have hbelow := (abs_le.mp hexact).2
    have hlimit := lt_limit
    have hleast := least_lt
    have htop : (1 : ℚ) ≤ 10 ^ 308 := one_le_pow₀ (by norm_num)
    generalize scaled (2 ^ 52) 972 = limit at hlimit hlarge
    generalize (10 : ℚ) ^ 308 = top at hlimit htop ⊢
    generalize q * 10 ^ k = meant at hmeant hbelow ⊢
    linarith

end Errors

/-! ### Very small numbers -/

/-- Zero, or one of the least two positive numbers. -/
def Tiny (x : Float) : Prop := Unsigned x.toModel.unpack ∧ size x.toModel.unpack ≤ 2 * least

theorem least_ge : 2 / (10 : ℚ) ^ 328 ≤ least := by
  have hpower : 2 * 2 ^ 1074 ≤ 10 ^ 328 := by decide +kernel
  have hcast := Nat.cast_le (α := ℚ).mpr hpower
  rw [Nat.cast_mul, Nat.cast_pow, Nat.cast_pow, Nat.cast_ofNat, Nat.cast_ofNat] at hcast
  rw [least, zpow_neg, div_le_iff₀ (by positivity), inv_mul_eq_div, le_div_iff₀ (two_zpow_pos _)]
  exact hcast

section Tiny
variable {x y : Float}

theorem size_of_beq_zero (h : (x == 0.0) = true) : size x.toModel.unpack = 0 := by
  rcases isZero_of_beq h with rfl | ⟨hzero, _⟩
  · rfl
  · obtain ⟨s, hs⟩ := unpack_of_isZero hzero
    rw [hs]
    rfl

/-- What is no more than the least number before it is rounded is tiny. -/
theorem tiny_div (hx : Unsigned x.toModel.unpack) (hy : Unsigned y.toModel.unpack) (hpos : 0 < size y.toModel.unpack)
    (h : size x.toModel.unpack / size y.toModel.unpack ≤ least) : Tiny (x / y) := by
  have hnonneg : 0 ≤ size x.toModel.unpack / size y.toModel.unpack := div_nonneg hx.size_nonneg hpos.le
  have hunit : unit (size x.toModel.unpack / size y.toModel.unpack) = least :=
    max_eq_right ((div_le_self hnonneg (by norm_num)).trans h)
  obtain ⟨hunsigned, hclose⟩ := (rounds_div hx hy hpos).of_le (h.trans (least_lt.le.trans (by norm_num)))
  rw [hunit] at hclose
  have habove := (abs_le.mp hclose).2
  exact ⟨hunsigned, by linarith⟩

/-- What is small enough is tiny after a division by the greatest power of ten. -/
theorem tiny_div_powerOfTen (hx : Unsigned x.toModel.unpack) (h : size x.toModel.unpack ≤ 1 / 10 ^ 20) :
    Tiny (x / powerOfTen 308) := by
  have hy := near_powerOfTen (le_refl 308)
  have hlow := (abs_le.mp hy.close).1
  have hhalf : (10 : ℚ) ^ 308 / 2 ≤ size (powerOfTen 308).toModel.unpack := by
    have htop : (0 : ℚ) < 10 ^ 308 := by positivity
    generalize (10 : ℚ) ^ 308 = top at hlow htop ⊢
    linarith
  have hpos := hhalf.trans_lt' (show (0 : ℚ) < 10 ^ 308 / 2 by positivity)
  refine tiny_div hx hy.unsigned hpos (le_trans ?_ least_ge)
  calc size x.toModel.unpack / size (powerOfTen 308).toModel.unpack ≤ 1 / 10 ^ 20 / (10 ^ 308 / 2) :=
        div_le_div₀ (by positivity) h (by positivity) hhalf
    _ = 2 / 10 ^ 328 := by
        rw [show (328 : ℕ) = 20 + 308 from rfl, pow_add]
        field_simp

/-- What is tiny stays so: the number of places to go down is positive, so each power of ten is at least ten. -/
theorem Tiny.scaleDown {k : ℕ} (hk : 1 ≤ k) (hx : Tiny x) : Tiny (scaleDown x k) := by
  induction k using Nat.strongRecOn generalizing x with
  | ind k ih =>
    rw [Number.scaleDown]
    split
    · rename_i hsmall
      have hy := near_powerOfTen hsmall
      have hlow := (abs_le.mp hy.close).1
      have hten : (10 : ℚ) ≤ 10 ^ k := le_self_pow₀ (by norm_num) (by omega)
      have htwo : 2 ≤ size (powerOfTen k).toModel.unpack := by linarith
      refine tiny_div hx.1 hy.unsigned (by linarith) ?_
      rw [div_le_iff₀ (by linarith)]
      have hscaled := mul_le_mul_of_nonneg_left htwo least_pos.le
      linarith [hx.2]
    · split
      · exact hx
      · refine ih (k - 308) (by omega) (by omega) (tiny_div_powerOfTen hx.1 ?_)
        have hleast := least_lt
        norm_num at hleast ⊢
        linarith [hx.2]

end Tiny

/-! ### Decimals -/

theorem Near.mono {part part' more more' q : ℚ} {x : Float} (h : Near part more q x) (hq : 0 ≤ q) (hpart : part ≤ part')
    (hmore : more ≤ more') : Near part' more' q x :=
  ⟨h.unsigned, h.close.trans (add_le_add (mul_le_mul_of_nonneg_right hpart hq) hmore)⟩

/-- What is tiny is near all that is small. -/
theorem Tiny.near {part q : ℚ} {x : Float} (h : Tiny x) (hpart : 0 ≤ part) (hq : 0 ≤ q) (hq' : q ≤ least) :
    Near part (3 * least) q x := by
  refine ⟨h.1, ?_⟩
  have hnonneg := h.1.size_nonneg
  have hleast := least_pos
  have hshare : 0 ≤ part * q := mul_nonneg hpart hq
  rw [abs_le]
  constructor <;> linarith [h.2]

/-- A zero is near what it stands for. -/
theorem near_of_zero {part more q : ℚ} {x : Float} (hunsigned : Unsigned x.toModel.unpack)
    (hzero : size x.toModel.unpack = 0) (hq : q = 0) (hmore : 0 ≤ more) : Near part more q x := by
  refine ⟨hunsigned, ?_⟩
  rw [hzero, hq, sub_zero, abs_zero, mul_zero, zero_add]
  exact hmore

section Decimals
variable {n : ℕ} (hn : n < UInt64.size)
include hn

/-- The number made of the digits is zero only if they are. -/
theorem eq_zero_of_size (h : size n.toUInt64.toFloat.toModel.unpack = 0) : (n : ℚ) = 0 := by
  have hclose := (near_toFloat hn).close
  have hnonneg : (0 : ℚ) ≤ n := Nat.cast_nonneg n
  rw [h, zero_sub, abs_neg, abs_of_nonneg hnonneg] at hclose
  linarith

/-- One division. -/
theorem near_divided {k : ℕ} (hk : k ≤ 308) : Near (4 / 2 ^ 52) least (n / 10 ^ k) (n.toUInt64.toFloat / powerOfTen k) := by
  have hbound : (n : ℚ) ≤ 2 ^ 64 := by exact_mod_cast hn.le
  have hone : (1 : ℚ) ≤ 10 ^ k := one_le_pow₀ (by norm_num)
  have hdiv := (near_toFloat hn).div (near_powerOfTen hk) (by norm_num) (by norm_num) le_rfl (by norm_num)
    (Nat.cast_nonneg n) hbound hone
  exact hdiv.mono (by positivity) (by norm_num) (by linarith)

/-- Sixty-four bits are not much when they are divided by powers of ten. -/
theorem div_powerOfTen_le {j k : ℕ} (h : j + 20 ≤ k) : (n : ℚ) / 10 ^ k ≤ 1 / 10 ^ j := by
  have hbound : (n : ℚ) ≤ 10 ^ 20 := by
    have hbits : (n : ℚ) ≤ 2 ^ 64 := by exact_mod_cast hn.le
    norm_num at hbits ⊢
    linarith
  rw [div_le_div_iff₀ (by positivity) (by positivity), one_mul]
  calc (n : ℚ) * 10 ^ j ≤ 10 ^ 20 * 10 ^ j := mul_le_mul_of_nonneg_right hbound (by positivity)
    _ = 10 ^ (j + 20) := by rw [pow_add, mul_comm]
    _ ≤ 10 ^ k := pow_le_pow_right₀ (by norm_num) h

/-- After two divisions with the greatest power of ten next to nothing is left. -/
theorem tiny_scaleDown {k : ℕ} (hk : 308 < k) : Tiny (scaleDown (n.toUInt64.toFloat / powerOfTen 308) k) := by
  have hfirst := near_divided hn (le_refl 308)
  have hleast := least_lt
  rw [scaleDown, if_neg (not_le.mpr hk)]
  split
  · rename_i hzero
    exact ⟨hfirst.unsigned, by linarith [size_of_beq_zero hzero, least_pos]⟩
  · refine (tiny_div_powerOfTen hfirst.unsigned ?_).scaleDown (by omega)
    have hsmall := div_powerOfTen_le hn (show 30 + 20 ≤ 308 by norm_num)
    have habove := (abs_le.mp hfirst.close).2
    have hmeant : (0 : ℚ) ≤ n / 10 ^ 308 := by positivity
    generalize (n : ℚ) / 10 ^ 308 = meant at hsmall habove hmeant
    norm_num at hsmall hleast ⊢
    linarith

/-- **Digits with places taken away are read near what they stand for.** -/
theorem near_scaleDown (k : ℕ) : Near (7 / 2 ^ 52) (3 * least) (n / 10 ^ k) (scaleDown n.toUInt64.toFloat k) := by
  have hleast := least_pos
  have hmeant : (0 : ℚ) ≤ n / 10 ^ k := by positivity
  rw [scaleDown]
  split
  · rename_i hsmall
    exact (near_divided hn hsmall).mono hmeant (by norm_num) (by linarith)
  · split
    · rename_i hzero
      have hsize := size_of_beq_zero hzero
      exact near_of_zero (near_toFloat hn).unsigned hsize (by rw [eq_zero_of_size hn hsize, zero_div]) (by linarith)
    · rename_i hlarge _
      obtain ⟨j, rfl⟩ : ∃ j, k = 308 + j := ⟨k - 308, by omega⟩
      rw [Nat.add_sub_cancel_left]
      rcases Nat.lt_or_ge 308 j with hmore | hfew
      · refine (tiny_scaleDown hn hmore).near (by norm_num) hmeant (le_trans ?_ least_ge)
        refine (div_powerOfTen_le hn (show 328 + 20 ≤ 308 + j by omega)).trans ?_
        exact div_le_div_of_nonneg_right (by norm_num) (by positivity)
      · have hfirst := near_divided hn (le_refl 308)
        have hnonneg : (0 : ℚ) ≤ n / 10 ^ 308 := by positivity
        have hbound : (n : ℚ) / 10 ^ 308 ≤ 2 ^ 64 :=
          (div_powerOfTen_le hn (show 0 + 20 ≤ 308 by norm_num)).trans (by norm_num)
        have hone : (1 : ℚ) ≤ 10 ^ j := one_le_pow₀ (by norm_num)
        have hsecond := hfirst.div (near_powerOfTen hfew) (by norm_num) (by norm_num) least_pos.le
          (by linarith [least_lt]) hnonneg hbound hone
        rw [scaleDown, if_pos hfew, pow_add, ← div_div]
        exact hsecond.mono (by positivity) (by norm_num) (by linarith)

/-- **Digits with places added are read near what they stand for**, or as an infinite number. -/
theorem near_scaleUp (k : ℕ) :
    Near (4 / 2 ^ 52) least (n * 10 ^ k) (scaleUp n.toUInt64.toFloat k) ∨
      (scaleUp n.toUInt64.toFloat k).toModel.unpack = .infinity .positive ∧ (10 : ℚ) ^ 308 ≤ n * 10 ^ k := by
  have hfirst := near_toFloat hn
  unfold scaleUp
  split
  · rename_i hsmall
    exact hfirst.mul_powerOfTen (Nat.cast_nonneg n) hsmall
  · rename_i hlarge
    split
    · rename_i hzero
      have hsize := size_of_beq_zero hzero
      exact .inl (near_of_zero hfirst.unsigned hsize (by rw [eq_zero_of_size hn hsize, zero_mul]) least_pos.le)
    · rename_i hnonzero
      have hpos : 0 < n := by
        refine Nat.pos_of_ne_zero fun hzero => hnonzero ?_
        rw [hzero]
        rfl
      refine .inr ⟨rfl, ?_⟩
      calc (10 : ℚ) ^ 308 ≤ 10 ^ k := pow_le_pow_right₀ (by norm_num) (not_le.mp hlarge).le
        _ ≤ n * 10 ^ k := le_mul_of_one_le_left (by positivity) (by exact_mod_cast hpos)

/-- An integer is near the number that it becomes. -/
theorem near_ofNat : Near (4 / 2 ^ 52) least n (Float.ofNat n) := by
  have hbound : (n : ℚ) < 2 ^ 64 := by exact_mod_cast hn
  show Near _ _ _ (Float.ofScientific n false 0)
  rw [Float.ofScientific]
  split
  · have hproduct := (near_toFloat hn).mul_powerOfTen (Nat.cast_nonneg n) (Nat.zero_le 308)
    rw [pow_zero, mul_one] at hproduct
    refine hproduct.resolve_right fun ⟨_, hlarge⟩ => ?_
    have hpower : (2 : ℚ) ^ 64 ≤ 10 ^ 308 :=
      (show (2 : ℚ) ^ 64 ≤ 10 ^ 64 by norm_num).trans (pow_le_pow_right₀ (by norm_num) (by norm_num))
    exact (hpower.trans hlarge).not_gt hbound
  · rename_i hlong
    have hlarge : 2 ^ 53 ≤ n := by omega
    have hone : (1 : ℚ) ≤ n := by exact_mod_cast (Nat.one_le_two_pow.trans hlarge)
    have hround := rounds_ofScientific (Nat.two_pow_pos 53 |>.trans_le hlarge) (Nat.zero_le 308)
    rw [pow_zero, mul_one] at hround
    obtain ⟨hunsigned, hclose⟩ := hround.of_le (by linarith)
    rw [unit_of_one_le hone] at hclose
    refine ⟨hunsigned, hclose.trans ?_⟩
    linarith [least_pos]

end Decimals

/-- **Digits with a power of ten are read near what they stand for**, or as an infinite number. -/
theorem near_magnitude {n : ℕ} (hn : n < UInt64.size) (exponent : ℤ) :
    Near (7 / 2 ^ 52) (3 * least) (n * 10 ^ exponent) (magnitude n exponent) ∨
      (magnitude n exponent).toModel.unpack = .infinity .positive ∧ (10 : ℚ) ^ 308 ≤ n * 10 ^ exponent := by
  unfold magnitude
  split
  · rename_i hup
    obtain ⟨k, rfl⟩ := Int.eq_ofNat_of_zero_le hup
    rw [Int.toNat_natCast, zpow_natCast]
    refine (near_scaleUp hn k).imp_left fun hnear => ?_
    exact hnear.mono (by positivity) (by norm_num) (by linarith [least_pos])
  · rename_i hdown
    obtain ⟨k, rfl⟩ : ∃ k : ℕ, exponent = -k := ⟨exponent.natAbs, by omega⟩
    rw [Int.natAbs_neg, Int.natAbs_natCast, zpow_neg, zpow_natCast, ← div_eq_mul_inv]
    exact .inl (near_scaleDown hn k)

/-! ### Signs -/

/-- The fraction that a finite number stands for. -/
def value (x : Float) : ℚ :=
  match x.toModel.unpack with
  | .finite .positive m e _ => scaled m e
  | .finite .negative m e _ => -scaled m e
  | _ => 0

/-- The number that is read for `q`: less than one part in `2 ^ 49` and four of the least numbers away, or infinite if
`q` is too large. -/
def StandsFor (q : ℚ) (x : Float) : Prop :=
  x.isFinite = true ∧ |value x - q| ≤ |q| / 2 ^ 49 + 4 * least ∨ x.isInf = true ∧ 2 ^ 1023 ≤ |q|

theorem value_of_unsigned {x : Float} (h : Unsigned x.toModel.unpack) : value x = size x.toModel.unpack := by
  unfold value
  rcases h with h | ⟨m, e, hm, h⟩ <;> rw [h] <;> rfl

theorem isFinite_of_unsigned {x : Float} (h : Unsigned x.toModel.unpack) : x.isFinite = true := by
  show x.toModel.unpack.isFinite = true
  rcases h with h | ⟨m, e, hm, h⟩ <;> rw [h] <;> rfl

theorem Near.standsFor {q : ℚ} {x : Float} (h : Near (1 / 2 ^ 49) (4 * least) q x) (hq : 0 ≤ q) : StandsFor q x := by
  refine .inl ⟨isFinite_of_unsigned h.unsigned, ?_⟩
  rw [value_of_unsigned h.unsigned, abs_of_nonneg hq]
  exact h.close.trans_eq (by ring)

theorem unpack_neg (x : Float) : (-x).toModel.unpack = x.toModel.unpack.neg := by
  have hcanonical : Canonical x.toModel.unpack := canonical_unpack _
  have hstored : Stored x.toModel.unpack := stored_unpack _
  show (Float.Model.pack x.toModel.unpack.neg).unpack = _
  cases hx : x.toModel.unpack with
  | infinity s => cases s <;> rfl
  | notANumber => rfl
  | zero s => cases s <;> rfl
  | finite s m e hm =>
    rw [hx] at hcanonical hstored
    exact unpack_pack (u := .finite (-s) m e hm) hcanonical hstored.2

theorem StandsFor.neg {q : ℚ} {x : Float} (h : StandsFor q x) : StandsFor (-q) (-x) := by
  have hunpack := unpack_neg x
  have hvalue : value (-x) = -value x := by
    unfold value
    rw [hunpack]
    rcases x.toModel.unpack with (_ | _) | _ | (_ | _) | (_ | _) <;> simp [UnpackedFloat.neg]
  have hfinite : (-x).isFinite = x.isFinite := by
    show (-x).toModel.unpack.isFinite = x.toModel.unpack.isFinite
    rw [hunpack]
    cases x.toModel.unpack <;> rfl
  have hinfinite : (-x).isInf = x.isInf := by
    show (-x).toModel.unpack.isInf = x.toModel.unpack.isInf
    rw [hunpack]
    cases x.toModel.unpack <;> rfl
  have hdistance : |-value x - -q| = |value x - q| := by rw [neg_sub_neg, abs_sub_comm]
  unfold StandsFor at h ⊢
  rwa [hfinite, hinfinite, hvalue, abs_neg, hdistance]

/-- An integer of 64 bits stands for itself when it becomes a floating point number. -/
theorem standsFor_ofInt {n : ℤ} (hn : n.natAbs < UInt64.size) : StandsFor n (Float.ofInt n) := by
  have hnat {k : ℕ} (hk : k < UInt64.size) : StandsFor k (Float.ofNat k) :=
    ((near_ofNat hk).mono (Nat.cast_nonneg k) (by norm_num) (by linarith [least_pos])).standsFor (Nat.cast_nonneg k)
  cases n with
  | ofNat k => exact_mod_cast hnat hn
  | negSucc k =>
    have hneg := (hnat hn).neg
    rw [Int.cast_negSucc]
    exact_mod_cast hneg

/-! ### Digits -/

/-- The number that digits make behind a number. -/
def appended (n : ℕ) (ds : List ℕ) : ℕ := ds.foldl (fun n d => 10 * n + d) n

section Digits
variable {n : ℕ} {ds : List ℕ}

theorem appended_append (n : ℕ) (ds ds' : List ℕ) : appended n (ds ++ ds') = appended (appended n ds) ds' :=
  List.foldl_append

/-- Digits behind a number fill the places that they take. -/
theorem appended_bounds (n : ℕ) (h : ∀ d ∈ ds, d ≤ 9) :
    n * 10 ^ ds.length ≤ appended n ds ∧ appended n ds < (n + 1) * 10 ^ ds.length := by
  induction ds generalizing n with
  | nil => simp [appended]
  | cons d ds ih =>
    obtain ⟨hd, hrest⟩ := List.forall_mem_cons.mp h
    obtain ⟨hlow, hhigh⟩ := ih (10 * n + d) hrest
    rw [List.length_cons, Nat.pow_succ']
    constructor
    · calc n * (10 * 10 ^ ds.length) = 10 * n * 10 ^ ds.length := by ring
        _ ≤ (10 * n + d) * 10 ^ ds.length := Nat.mul_le_mul_right _ (Nat.le_add_right ..)
        _ ≤ appended n (d :: ds) := hlow
    · calc appended n (d :: ds) < (10 * n + d + 1) * 10 ^ ds.length := hhigh
        _ ≤ (10 * (n + 1)) * 10 ^ ds.length := Nat.mul_le_mul_right _ (by omega)
        _ = (n + 1) * (10 * 10 ^ ds.length) := by ring

/-- What is taken up: the number that the first digits make. If digits are left, it has nearly 64 bits. -/
theorem absorb_spec (hn : n < UInt64.size) (h : ∀ d ∈ ds, d ≤ 9) :
    ∃ taken left, ds = taken ++ left ∧ absorb n ds = (appended n taken, taken.length) ∧
      appended n taken < UInt64.size ∧ (left = [] ∨ 2 ^ 60 ≤ appended n taken) := by
  induction ds generalizing n with
  | nil => exact ⟨[], [], rfl, rfl, hn, .inl rfl⟩
  | cons d ds ih =>
    obtain ⟨hd, hrest⟩ := List.forall_mem_cons.mp h
    rw [absorb]
    split
    · rename_i hfits
      obtain ⟨taken, left, rfl, habsorb, hsmall, hleft⟩ := ih hfits hrest
      refine ⟨d :: taken, left, rfl, ?_, hsmall, hleft⟩
      rw [habsorb]
      rfl
    · rename_i hfull
      refine ⟨[], d :: ds, rfl, rfl, hn, .inr ?_⟩
      simp only [UInt64.size, not_lt] at hfull
      show 2 ^ 60 ≤ n
      omega

theorem le_appended (n : ℕ) (ds : List ℕ) : n ≤ appended n ds := by
  induction ds generalizing n with
  | nil => exact le_rfl
  | cons d ds ih => exact le_trans (by omega) (ih (10 * n + d))

/-- Digits that make a number of 64 bits are all taken up. -/
theorem absorb_of_lt (h : appended n ds < UInt64.size) : absorb n ds = (appended n ds, ds.length) := by
  induction ds generalizing n with
  | nil => rfl
  | cons d ds ih =>
    have hfits : 10 * n + d < UInt64.size := (le_appended (10 * n + d) ds).trans_lt h
    rw [absorb, if_pos hfits, ih h]
    rfl

/-- Digits behind a number, with a power of ten. -/
theorem appended_between (n : ℕ) (h : ∀ d ∈ ds, d ≤ 9) (e : ℤ) :
    (n : ℚ) * 10 ^ (e + ds.length) ≤ appended n ds * 10 ^ e ∧
      (appended n ds : ℚ) * 10 ^ e < (n + 1) * 10 ^ (e + ds.length) := by
  obtain ⟨hlow, hhigh⟩ := appended_bounds n h
  have hpos : (0 : ℚ) < 10 ^ e := zpow_pos (by norm_num) e
  have hlow' : (n : ℚ) * 10 ^ ds.length ≤ appended n ds := by exact_mod_cast hlow
  have hhigh' : (appended n ds : ℚ) < (n + 1) * 10 ^ ds.length := by exact_mod_cast hhigh
  rw [zpow_add₀ (by norm_num), zpow_natCast, mul_comm ((10 : ℚ) ^ e), ← mul_assoc, ← mul_assoc]
  exact ⟨mul_le_mul_of_nonneg_right hlow' hpos.le, mul_lt_mul_of_pos_right hhigh' hpos⟩

end Digits

/-- Two numbers between `n` and `n + 1` of a unit are near each other if `n` is large. -/
theorem between_error {n : ℕ} {u a b : ℚ} (hu : 0 < u) (hn : 2 ^ 60 ≤ n) (ha : n * u ≤ a ∧ a < (n + 1) * u)
    (hb : n * u ≤ b ∧ b < (n + 1) * u) : |a - b| ≤ b / 2 ^ 60 := by
  have hlarge : (2 : ℚ) ^ 60 * u ≤ n * u := mul_le_mul_of_nonneg_right (by exact_mod_cast hn) hu.le
  have hunit : u ≤ b / 2 ^ 60 := by
    rw [le_div_iff₀ (by positivity)]
    linarith [hb.1]
  rw [abs_le]
  constructor <;> linarith [ha.1, ha.2, hb.1, hb.2]

theorem two_pow_mul_le : (2 : ℚ) ^ 1023 * 11 ≤ 10 ^ 308 * 10 := by
  have hpower : 2 ^ 1023 * 11 ≤ 10 ^ 308 * 10 := by decide +kernel
  have hcast := Nat.cast_le (α := ℚ).mpr hpower
  rwa [Nat.cast_mul, Nat.cast_mul, Nat.cast_pow, Nat.cast_pow, Nat.cast_ofNat, Nat.cast_ofNat,
    Nat.cast_ofNat] at hcast

section Reading
variable {whole fraction : List ℕ} (hwhole : ∀ d ∈ whole, d ≤ 9) (hfraction : ∀ d ∈ fraction, d ≤ 9) (power : ℤ)
include hwhole hfraction

/-- Digits that are not taken up make little difference: there are none, or those taken up have nearly 64 bits. -/
theorem absorb_error :
    ∃ n before behind, absorb 0 whole = (n, before) ∧ ∃ n', absorb n fraction = (n', behind) ∧ n' < UInt64.size ∧
      let meant : ℚ := appended 0 (whole ++ fraction) * 10 ^ (power - fraction.length)
      |n' * 10 ^ (power + (whole.length - before : ℕ) - behind) - meant| ≤ meant / 2 ^ 60 := by
  obtain ⟨taken, left, rfl, habsorb, hsmall, hleft⟩ := absorb_spec (show 0 < UInt64.size by decide) hwhole
  obtain ⟨taken', left', rfl, habsorb', hsmall', hleft'⟩ := absorb_spec hsmall hfraction
  refine ⟨_, _, _, habsorb, _, habsorb', hsmall', ?_⟩
  have hpositive (e : ℤ) : (0 : ℚ) < 10 ^ e := zpow_pos (by norm_num) e
  have hkept : (taken ++ left).length - taken.length = left.length := by simp
  rw [hkept]
  generalize hn : appended 0 taken = n at *
  rcases hleft with rfl | hlarge
  · -- the whole part is taken up, so at most the end of the fraction is missing
    have hmeant : appended 0 (taken ++ [] ++ (taken' ++ left')) = appended (appended n taken') left' := by
      rw [List.append_nil, appended_append, hn, appended_append]
    have hexponent : power - (taken' ++ left').length + left'.length = power + ([] : List ℕ).length - taken'.length := by
      simp only [List.length_append, List.length_nil]
      omega
    have hbetween := appended_between (appended n taken') (List.forall_mem_append.mp hfraction).2
      (power - (taken' ++ left').length)
    rw [hexponent] at hbetween
    simp only [hmeant]
    rcases hleft' with rfl | hlarge'
    · simp only [List.append_nil, List.length_nil, Nat.cast_zero, add_zero]
      rw [show appended (appended n taken') [] = appended n taken' from rfl, sub_eq_zero_of_eq rfl, abs_zero]
      positivity
    · refine between_error (hpositive _) hlarge' ⟨le_rfl, ?_⟩ hbetween
      exact mul_lt_mul_of_pos_right (lt_add_one _) (hpositive _)
  · -- what is missing counts for less than the last digit of the whole part that is taken up
    have hmeant : appended 0 (taken ++ left ++ (taken' ++ left')) = appended n (left ++ (taken' ++ left')) := by
      rw [List.append_assoc, appended_append, hn]
    have hdigits : ∀ d ∈ left ++ (taken' ++ left'), d ≤ 9 :=
      List.forall_mem_append.mpr ⟨(List.forall_mem_append.mp hwhole).2, hfraction⟩
    have hbetween := appended_between n hdigits (power - (taken' ++ left').length)
    have hbetween' := appended_between n (List.forall_mem_append.mp hfraction).1 (power + left.length - taken'.length)
    have hexponent : power - (taken' ++ left').length + (left ++ (taken' ++ left')).length = power + left.length := by
      simp only [List.length_append]
      omega
    rw [hexponent] at hbetween
    rw [sub_add_cancel] at hbetween'
    simp only [hmeant]
    exact between_error (hpositive _) hlarge hbetween' hbetween

/-- **Digits are read near what they stand for.** -/
theorem ofDigits_standsFor (negative : Bool) :
    StandsFor ((if negative then -1 else 1) * (appended 0 (whole ++ fraction) * 10 ^ (power - fraction.length)))
      (ofDigits negative whole fraction power) := by
  obtain ⟨n, before, behind, habsorb, n', habsorb', hsmall, herror⟩ := absorb_error hwhole hfraction power
  have hpositive : (0 : ℚ) < 10 ^ (power - fraction.length) := zpow_pos (by norm_num) _
  have hmeant : (0 : ℚ) ≤ appended 0 (whole ++ fraction) * 10 ^ (power - fraction.length) := by positivity
  have hmagnitude := near_magnitude hsmall (power + (whole.length - before : ℕ) - behind)
  simp only [ofDigits, habsorb, habsorb']
  generalize (appended 0 (whole ++ fraction) : ℚ) * 10 ^ (power - fraction.length) = meant at herror hmeant ⊢
  generalize (n' : ℚ) * 10 ^ (power + (whole.length - before : ℕ) - behind) = taken at herror hmagnitude
  generalize magnitude n' (power + (whole.length - before : ℕ) - behind) = x at hmagnitude ⊢
  have hstands : StandsFor meant x := by
    obtain ⟨_, habove⟩ := abs_le.mp herror
    rcases hmagnitude with hnear | ⟨hinfinite, hlarge⟩
    · refine Near.standsFor ⟨hnear.unsigned, ?_⟩ hmeant
      refine (abs_sub_le _ taken _).trans ((add_le_add hnear.close herror).trans ?_)
      have hleast := least_pos
      linarith
    · refine .inr ⟨congrArg UnpackedFloat.isInf hinfinite, ?_⟩
      have hpower := two_pow_mul_le
      rw [abs_of_nonneg hmeant]
      generalize (10 : ℚ) ^ 308 = top at hlarge hpower
      generalize (2 : ℚ) ^ 1023 = bottom at hpower ⊢
      linarith
  cases negative
  · simpa using hstands
  · simpa using hstands.neg

end Reading

/-! ### Short decimals -/

theorem powerOfTen_exact (k : Fin 23) : powerOfTen k = Float.exactlyRepresentablePowersOfTen[k] := by
  revert k
  decide +kernel

/-- **Short decimals are read exactly as what they stand for is rounded.** Where the digits and the power of ten can be
stored, only one step rounds. -/
theorem ofDigits_of_short (negative : Bool) {whole fraction : List ℕ} {power : ℤ}
    (hdigits : appended 0 (whole ++ fraction) < 2 ^ 53) (hscale : (power - fraction.length).natAbs ≤ 22) :
    ofDigits negative whole fraction power =
      let x := Float.ofScientific (appended 0 (whole ++ fraction)) (power - fraction.length < 0)
        (power - fraction.length).natAbs
      if negative then -x else x := by
  rw [appended_append] at hdigits ⊢
  have hbits : (2 : ℕ) ^ 53 < UInt64.size := by decide
  have hwhole := absorb_of_lt ((le_appended (appended 0 whole) fraction).trans_lt (hdigits.trans hbits))
  have hfraction := absorb_of_lt (hdigits.trans hbits)
  have hpower : power + (whole.length - whole.length : ℕ) - fraction.length = power - fraction.length := by
    rw [Nat.sub_self, Nat.cast_zero, Int.add_zero]
  simp only [ofDigits, hwhole, hfraction, hpower]
  generalize appended (appended 0 whole) fraction = n at hdigits
  generalize power - fraction.length = scale at hscale
  have hexact := powerOfTen_exact ⟨scale.natAbs, by omega⟩
  change powerOfTen scale.natAbs = _ at hexact
  have hmagnitude : magnitude n scale = Float.ofScientific n (scale < 0) scale.natAbs := by
    rw [Float.ofScientific, dif_pos ⟨hdigits, hscale⟩]
    unfold magnitude
    split
    · rename_i hnonneg
      have hsign : ¬ scale < 0 := by omega
      have hplaces : scale.toNat = scale.natAbs := by omega
      rw [scaleUp, if_pos (by omega), hplaces, hexact, decide_eq_false hsign]
      rfl
    · rename_i hnegative
      have hsign : scale < 0 := by omega
      rw [scaleDown, if_pos (by omega), hexact, decide_eq_true hsign]
      rfl
  rw [hmagnitude]

end Drafting.Number
