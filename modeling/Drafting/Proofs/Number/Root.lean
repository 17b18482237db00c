import Drafting.Plane.Point
import Drafting.Proofs.Number.Rounding
import Drafting.Proofs.Number.Symmetry

/-! The root of a square.

The square of a number is rounded, and its root is rounded again, so the root need not
be the number. But rounding does not go past what can be stored. Above the bound
`epsilon` there is a number that can be stored between the square of `epsilon` and the
square of the next number, and below it one between the squares of the two numbers
before it. So a number above `epsilon` keeps a root of at least `epsilon`, and one
two steps below it a root below `epsilon`. Only `epsilon` and the number before it are left, and
these are computed (`epsilon_le_sqrt_iff`). -/
namespace Drafting.Number

open Float.Model (UnpackedFloat Format)
open Float.Model.UnpackedFloat

section Sizes
variable {m n : ℕ} {e b : ℤ}

theorem scaled_nonneg (m : ℕ) (e : ℤ) : 0 ≤ scaled m e := mul_nonneg (Nat.cast_nonneg m) (two_zpow_pos e).le

theorem scaled_mul (m n : ℕ) (e b : ℤ) : scaled m e * scaled n b = scaled (m * n) (e + b) := by
  rw [scaled, scaled, scaled, zpow_add₀ two_ne_zero]
  push_cast
  ring

theorem scaled_le_of_square (h : scaled n b ≤ scaled m e) : scaled (n * n) (b + b) ≤ scaled (m * m) (e + e) := by
  rw [← scaled_mul, ← scaled_mul]
  exact mul_self_le_mul_self (scaled_nonneg n b) h

theorem scaled_lt_of_lt_square (h : scaled (m * m) (e + e) < scaled (n * n) (b + b)) : scaled m e < scaled n b := by
  rw [← scaled_mul, ← scaled_mul] at h
  exact lt_of_mul_self_lt_mul_self₀ (scaled_nonneg n b) h

end Sizes

/-! ### Numbers read back -/

/-- A number that is infinite, or no less than this. -/
def Reaches (q : ℚ) (u : UnpackedFloat) : Prop :=
  u = .infinity .positive ∨ ∃ m e hm, u = .finite .positive m e hm ∧ q ≤ scaled m e

/-- A number that is zero, or positive and no greater than this. -/
def Within (q : ℚ) (u : UnpackedFloat) : Prop :=
  (∃ s, u = .zero s) ∨ ∃ m e hm, u = .finite .positive m e hm ∧ scaled m e ≤ q

section Bounds
variable {m n : ℕ} {e b : ℤ} (accuracy : Accuracy)

/-- What is rounded and stored is no less than what it was no less than. -/
theorem reaches_round (h : 2 ^ 52 ≤ m ∨ e ≤ -1074) (hpos : 0 < n) (hn : n < 2 ^ 53) (hb : -1074 ≤ b)
    (hle : scaled n b ≤ scaled m e) :
    Reaches (scaled n b) (Float.Model.pack (roundWithAccuracy Format.binary64 .positive m e accuracy)).unpack := by
  have hsize := scaled_le_size_round .positive accuracy hn hb h hle
  obtain ⟨hcanonical, hzero | ⟨m', e', hm, hfinite⟩⟩ := canonical_round .positive accuracy h
  · have hnone : 0 < scaled n b := mul_pos (Nat.cast_pos.mpr hpos) (two_zpow_pos b)
    rw [hzero] at hsize
    exact absurd hsize hnone.not_ge
  · rw [hfinite] at hsize hcanonical ⊢
    by_cases hfits : e' ≤ 971
    · exact .inr ⟨m', e', hm, unpack_pack hcanonical hfits, hsize⟩
    · exact .inl (unpack_pack_of_large (not_le.mp hfits))

/-- What is rounded and stored is no greater than what it was less than. -/
theorem within_round (h : 2 ^ 52 ≤ m ∨ e ≤ -1074) (hn : n < 2 ^ 53) (hb : -1074 ≤ b) (hlarge : b ≤ 971)
    (hlt : scaled m e < scaled n b) :
    Within (scaled n b) (Float.Model.pack (roundWithAccuracy Format.binary64 .positive m e accuracy)).unpack := by
  have hsize := size_round_le .positive accuracy hn hb h hlt
  obtain ⟨hcanonical, hzero | ⟨m', e', hm, hfinite⟩⟩ := canonical_round .positive accuracy h
  · rw [hzero]
    exact .inl ⟨.positive, rfl⟩
  · rw [hfinite] at hsize hcanonical ⊢
    by_cases hfits : e' ≤ 971
    · exact .inr ⟨m', e', hm, unpack_pack hcanonical hfits, hsize⟩
    · obtain ⟨_, _, hbits | hend⟩ := hcanonical
      · have hgreater := (scaled_lt_of_exponent_lt hn (hlarge.trans_lt (not_le.mp hfits))).trans_le
          (scaled_le_scaled.mpr hbits)
        exact absurd hsize hgreater.not_ge
      · omega

end Bounds

/-! ### Roots -/

section Roots
variable {m n : ℕ} {e b : ℤ} {hm : 0 < m}

/-- The root of a mantissa without what is behind the point, with enough bits. -/
theorem sqrtCore_spec (hm : 0 < m) (e : ℤ) :
    ∃ root target accuracy, sqrtCore Format.binary64 m e = (root, target, accuracy) ∧
      (2 ^ 52 ≤ root ∨ target ≤ -1074) ∧ scaled (root * root) (target + target) ≤ scaled m e ∧
      scaled m e < scaled ((root + 1) * (root + 1)) (target + target) := by
  let target : ℤ := min (e / 2) (max ((m.log2 + 1 + e + 1) / 2 - 53) (-1074))
  let shifted := m <<< (e - 2 * target).toNat
  have htarget : target ≤ e / 2 ∧ (target ≤ (m.log2 + 1 + e + 1) / 2 - 53 ∨ target ≤ -1074) := by omega
  have hshifted : shifted = m * 2 ^ (e - (target + target)).toNat := by
    rw [← two_mul]
    exact Nat.shiftLeft_eq ..
  have hsame : scaled m e = scaled shifted (target + target) := by
    rw [hshifted, ← scaled_eq_shifted (by omega)]
  refine ⟨Nat.sqrt shifted, target, _, rfl, ?_, ?_, ?_⟩
  · refine htarget.2.imp_left fun hbits => ?_
    have hlog : 104 ≤ m.log2 + (e - (target + target)).toNat := by omega
    rw [Nat.le_sqrt, hshifted]
    calc 2 ^ 52 * 2 ^ 52 = 2 ^ 104 := rfl
      _ ≤ 2 ^ (m.log2 + (e - (target + target)).toNat) := Nat.pow_le_pow_right (by decide) hlog
      _ = 2 ^ m.log2 * 2 ^ (e - (target + target)).toNat := Nat.pow_add ..
      _ ≤ m * 2 ^ (e - (target + target)).toNat := Nat.mul_le_mul_right _ (Nat.log2_self_le hm.ne')
  · rw [hsame, scaled_le_scaled]
    exact Nat.sqrt_le shifted
  · rw [hsame, scaled_lt_scaled]
    exact Nat.lt_succ_sqrt shifted

theorem reaches_sqrt (hpos : 0 < n) (hn : n < 2 ^ 53) (hb : -1074 ≤ b)
    (hle : scaled (n * n) (b + b) ≤ scaled m e) :
    Reaches (scaled n b) (Float.Model.pack (sqrt Format.binary64 (.finite .positive m e hm))).unpack := by
  obtain ⟨root, target, accuracy, hcore, henough, _, hnext⟩ := sqrtCore_spec hm e
  have hbelow : scaled n b < scaled (root + 1) target := scaled_lt_of_lt_square (hle.trans_lt hnext)
  rw [sqrt, hcore]
  refine reaches_round accuracy henough hpos hn hb ?_
  rcases lt_or_ge b target with hsmaller | hgreater
  · have hbits : 2 ^ 52 ≤ root := henough.resolve_right (by omega)
    exact ((scaled_lt_of_exponent_lt hn hsmaller).trans_le (scaled_le_scaled.mpr hbits)).le
  · rw [scaled_eq_shifted hgreater, scaled_lt_scaled] at hbelow
    rw [scaled_eq_shifted hgreater, scaled_le_scaled]
    exact Nat.lt_succ_iff.mp hbelow

theorem within_sqrt (hn : n < 2 ^ 53) (hb : -1074 ≤ b) (hlarge : b ≤ 971)
    (hlt : scaled m e < scaled (n * n) (b + b)) :
    Within (scaled n b) (Float.Model.pack (sqrt Format.binary64 (.finite .positive m e hm))).unpack := by
  obtain ⟨root, target, accuracy, hcore, henough, hroot, _⟩ := sqrtCore_spec hm e
  rw [sqrt, hcore]
  exact within_round accuracy henough hn hb hlarge (scaled_lt_of_lt_square (hroot.trans_lt hlt))

end Roots

/-! ### Comparing with the bound -/

section Comparison
variable {x y : Float} {m n : ℕ} {e b : ℤ} {hm : 0 < m} {hn : 0 < n}

/-- Positive numbers compare as their sizes do. -/
theorem lt_iff_scaled (hx : x.toModel.unpack = .finite .positive m e hm)
    (hy : y.toModel.unpack = .finite .positive n b hn) :
    x < y ↔ scaled m e < scaled n b := by
  have hcanonical : Canonical (.finite .positive m e hm) := hx ▸ canonical_unpack _
  have hcanonical' : Canonical (.finite .positive n b hn) := hy ▸ canonical_unpack _
  have hless {m n : ℕ} {e b : ℤ} {hm : 0 < m} {hn : 0 < n} (h : Canonical (.finite .positive m e hm))
      (h' : Canonical (.finite .positive n b hn)) (hexponent : e < b) : scaled m e < scaled n b := by
    have hlow := h.2.1
    have hbits : 2 ^ 52 ≤ n := h'.2.2.resolve_right (by omega)
    exact (scaled_lt_of_exponent_lt h.1 hexponent).trans_le (scaled_le_scaled.mpr hbits)
  have hrank : x < y ↔ e < b ∨ e = b ∧ m < n := by
    rw [lt_iff_compare, hx, hy, compare_eq_lt_iff]
    simp [UnpackedFloat.isNaN, rank, Prod.Lex.toLex_lt_toLex]
  rw [hrank]
  rcases lt_trichotomy e b with hexponent | rfl | hexponent
  · exact iff_of_true (.inl hexponent) (hless hcanonical hcanonical' hexponent)
  · simp [scaled_lt_scaled]
  · have hgreater := hless hcanonical' hcanonical hexponent
    exact iff_of_false (by omega) hgreater.not_gt

theorem le_iff_scaled (hx : x.toModel.unpack = .finite .positive m e hm)
    (hy : y.toModel.unpack = .finite .positive n b hn) :
    x ≤ y ↔ scaled m e ≤ scaled n b := by
  have hnumber {z : Float} {m : ℕ} {e : ℤ} {hm : 0 < m} (hz : z.toModel.unpack = .finite .positive m e hm) :
      z.isNaN = false := congrArg UnpackedFloat.isNaN hz
  rw [← not_lt, ← lt_iff_scaled hy hx, ← not_le_iff (hnumber hx) (hnumber hy), not_not]

end Comparison

/-- The mantissa of `epsilon`, whose exponent is -72. -/
def mantissa : ℕ := 4722366482869645

/-- The mantissa of the square of `epsilon`, rounded down to the exponent -92. -/
def squareMantissa : ℕ := mantissa * mantissa / 2 ^ 52

theorem unpack_epsilon : epsilon.toModel.unpack = .finite .positive mantissa (-72) (by decide) := rfl

/-- The number before the bound. -/
def belowEpsilon : Float := .ofModel (.pack (.finite .positive (mantissa - 1) (-72) (by decide)))

theorem unpack_belowEpsilon : belowEpsilon.toModel.unpack = .finite .positive (mantissa - 1) (-72) (by decide) := rfl

section Bound
variable {x : Float}

theorem epsilon_le_of_reaches (h : Reaches (scaled mantissa (-72)) x.toModel.unpack) : epsilon ≤ x := by
  rcases h with hx | ⟨m, e, hm, hx, hle⟩
  · rw [le_iff_compare, hx]
    rfl
  · exact (le_iff_scaled unpack_epsilon hx).mpr hle

theorem not_epsilon_le_of_within (h : Within (scaled (mantissa - 1) (-72)) x.toModel.unpack) : ¬ epsilon ≤ x := by
  rcases h with ⟨s, hx⟩ | ⟨m, e, hm, hx, hle⟩
  · rw [le_iff_compare, hx, unpack_epsilon]
    exact (by decide : ¬ (some Ordering.gt).any (·.isLE) = true)
  · rw [le_iff_scaled unpack_epsilon hx]
    exact (hle.trans_lt (scaled_lt_scaled.mpr (by decide))).not_ge

/-- Adding zero makes no difference to what is finite. -/
theorem unpack_add_zero {s : Sign} {m : ℕ} {e : ℤ} {hm : 0 < m} (h : x.toModel.unpack = .finite s m e hm) :
    (x + 0.0).toModel.unpack = .finite s m e hm := by
  have hcanonical : Canonical (.finite s m e hm) := h ▸ canonical_unpack _
  have hstored : Stored (.finite s m e hm) := h ▸ stored_unpack _
  have hsum : add Format.binary64 x.toModel.unpack (.zero .positive) = .finite s m e hm := by rw [h]; rfl
  show (Float.Model.pack (add Format.binary64 x.toModel.unpack (.zero .positive))).unpack = _
  rw [hsum]
  exact unpack_pack hcanonical hstored.2

theorem Reaches.add_zero {q : ℚ} (h : Reaches q x.toModel.unpack) : Reaches q (x + 0.0).toModel.unpack := by
  rcases h with hx | ⟨m, e, hm, hx, hle⟩
  · have hsum : add Format.binary64 x.toModel.unpack (.zero .positive) = .infinity .positive := by rw [hx]; rfl
    refine .inl ?_
    show (Float.Model.pack (add Format.binary64 x.toModel.unpack (.zero .positive))).unpack = _
    rw [hsum]
    rfl
  · exact .inr ⟨m, e, hm, unpack_add_zero hx, hle⟩

theorem Within.add_zero {q : ℚ} (h : Within q x.toModel.unpack) : Within q (x + 0.0).toModel.unpack := by
  rcases h with ⟨s, hx⟩ | ⟨m, e, hm, hx, hle⟩
  · have hsum : add Format.binary64 x.toModel.unpack (.zero .positive) = .zero .positive := by
      rw [hx]
      cases s <;> rfl
    refine .inl ⟨.positive, ?_⟩
    show (Float.Model.pack (add Format.binary64 x.toModel.unpack (.zero .positive))).unpack = _
    rw [hsum]
    rfl
  · exact .inr ⟨m, e, hm, unpack_add_zero hx, hle⟩

/-- The root of a sum that reaches the square of the bound. -/
theorem epsilon_le_sqrt_of_reaches (h : Reaches (scaled (squareMantissa + 1) (-92)) x.toModel.unpack) :
    epsilon ≤ x.sqrt := by
  refine epsilon_le_of_reaches ?_
  show Reaches _ (Float.Model.pack (sqrt Format.binary64 x.toModel.unpack)).unpack
  rcases h with hx | ⟨m, e, hm, hx, hle⟩
  · rw [hx]
    exact .inl rfl
  · rw [hx]
    refine reaches_sqrt (by decide) (by decide) (by decide) (le_trans ?_ hle)
    rw [scaled_eq_shifted (show (-72 + -72 : ℤ) ≤ -92 by decide), scaled_le_scaled]
    decide

/-- The root of a sum that stays below the square of the number before the bound. -/
theorem not_epsilon_le_sqrt_of_within (h : Within (scaled (squareMantissa - 2) (-92)) x.toModel.unpack) :
    ¬ epsilon ≤ x.sqrt := by
  refine not_epsilon_le_of_within ?_
  show Within _ (Float.Model.pack (sqrt Format.binary64 x.toModel.unpack)).unpack
  rcases h with ⟨s, hx⟩ | ⟨m, e, hm, hx, hle⟩
  · rw [hx]
    exact .inl ⟨s, by cases s <;> rfl⟩
  · rw [hx]
    refine within_sqrt (by decide) (by decide) (by decide) (hle.trans_lt ?_)
    rw [scaled_eq_shifted (show (-72 + -72 : ℤ) ≤ -92 by decide), scaled_lt_scaled]
    decide

section Square
variable {s : Sign} {m : ℕ} {e : ℤ} {hm : 0 < m} (hx : x.toModel.unpack = .finite s m e hm)
include hx

/-- A square loses the sign, and has enough bits to be rounded. -/
theorem unpack_square :
    (2 ^ 52 ≤ m * m ∨ e + e ≤ -1074) ∧ (x * x).toModel.unpack =
      (Float.Model.pack (roundWithAccuracy Format.binary64 .positive (m * m) (e + e) .exact)).unpack := by
  have hcanonical : Canonical (.finite s m e hm) := hx ▸ canonical_unpack _
  have hmul : mul Format.binary64 x.toModel.unpack x.toModel.unpack =
      roundWithAccuracy Format.binary64 .positive (m * m) (e + e) .exact := by
    rw [hx]
    cases s <;> rfl
  refine ⟨hcanonical.2.2.imp (fun hbits => hbits.trans (Nat.le_mul_self m)) (by omega), ?_⟩
  rw [← hmul]
  rfl

theorem epsilon_le_sqrt_of_greater (h : scaled (mantissa + 1) (-72) ≤ scaled m e) : epsilon ≤ (x * x + 0.0).sqrt := by
  obtain ⟨henough, hsquare⟩ := unpack_square hx
  refine epsilon_le_sqrt_of_reaches (Reaches.add_zero ?_)
  rw [hsquare]
  refine reaches_round .exact henough (by decide) (by decide) (by decide) (le_trans ?_ (scaled_le_of_square h))
  rw [scaled_eq_shifted (show (-72 + -72 : ℤ) ≤ -92 by decide), scaled_le_scaled]
  decide

theorem not_epsilon_le_sqrt_of_smaller (h : scaled m e ≤ scaled (mantissa - 2) (-72)) :
    ¬ epsilon ≤ (x * x + 0.0).sqrt := by
  obtain ⟨henough, hsquare⟩ := unpack_square hx
  refine not_epsilon_le_sqrt_of_within (Within.add_zero ?_)
  rw [hsquare]
  refine within_round .exact henough (by decide) (by decide) (by decide) ((scaled_le_of_square h).trans_lt ?_)
  rw [scaled_eq_shifted (show (-72 + -72 : ℤ) ≤ -92 by decide), scaled_lt_scaled]
  decide

/-- The numbers between are the bound itself and the one before it, of either sign. -/
theorem eq_of_between (hlow : scaled (mantissa - 2) (-72) < scaled m e)
    (hhigh : scaled m e < scaled (mantissa + 1) (-72)) :
    SameSize x belowEpsilon ∧ m = mantissa - 1 ∧ e = -72 ∨ SameSize x epsilon ∧ m = mantissa ∧ e = -72 := by
  obtain ⟨hbits, hexponent, hnormal⟩ : Canonical (.finite s m e hm) := hx ▸ canonical_unpack _
  obtain rfl : e = -72 := by
    rcases lt_trichotomy e (-72) with hsmaller | rfl | hgreater
    · have hbelow := scaled_lt_of_exponent_lt hbits hsmaller
      exact absurd (hbelow.trans (scaled_lt_scaled.mpr (by decide))) hlow.not_gt
    · rfl
    · have habove := scaled_lt_of_exponent_lt (by decide : mantissa + 1 < 2 ^ 53) hgreater
      exact absurd (habove.trans_le (scaled_le_scaled.mpr (hnormal.resolve_right (by omega)))) hhigh.not_gt
  rw [scaled_lt_scaled] at hlow hhigh
  obtain rfl | rfl : m = mantissa - 1 ∨ m = mantissa := by omega
  · exact .inl ⟨(congrArg UnpackedFloat.abs hx).trans (congrArg UnpackedFloat.abs unpack_belowEpsilon).symm, rfl, rfl⟩
  · exact .inr ⟨(congrArg UnpackedFloat.abs hx).trans (congrArg UnpackedFloat.abs unpack_epsilon).symm, rfl, rfl⟩

theorem epsilon_le_sqrt_iff_of_finite : epsilon ≤ (x * x + 0.0).sqrt ↔ scaled mantissa (-72) ≤ scaled m e := by
  rcases le_or_gt (scaled (mantissa + 1) (-72)) (scaled m e) with hgreater | hhigh
  · exact iff_of_true (epsilon_le_sqrt_of_greater hx hgreater) ((scaled_le_scaled.mpr (by decide)).trans hgreater)
  · rcases le_or_gt (scaled m e) (scaled (mantissa - 2) (-72)) with hsmaller | hlow
    · exact iff_of_false (not_epsilon_le_sqrt_of_smaller hx hsmaller)
        (hsmaller.trans_lt (scaled_lt_scaled.mpr (by decide))).not_ge
    · rcases eq_of_between hx hlow hhigh with ⟨hsame, rfl, rfl⟩ | ⟨hsame, rfl, rfl⟩
      · rw [hsame.mul_self_eq, scaled_le_scaled]
        decide +kernel
      · rw [hsame.mul_self_eq]
        exact iff_of_true (by decide +kernel) le_rfl

end Square

/-- **The root of a square reaches the bound exactly if the number does.** -/
theorem epsilon_le_sqrt_iff (h : x.isNaN = false) : epsilon ≤ (x * x + 0.0).sqrt ↔ epsilon ≤ x.abs := by
  have habs : x.abs.toModel.unpack = (Float.Model.pack x.toModel.unpack.abs).unpack := rfl
  have hsquare : (x * x).toModel.unpack =
      (Float.Model.pack (mul Format.binary64 x.toModel.unpack x.toModel.unpack)).unpack := rfl
  cases hx : x.toModel.unpack with
  | notANumber => cases (congrArg UnpackedFloat.isNaN hx).symm.trans h
  | infinity s =>
    rw [hx] at habs hsquare
    have hinfinite : (x * x).toModel.unpack = .infinity .positive := hsquare.trans (by cases s <;> rfl)
    exact iff_of_true (epsilon_le_sqrt_of_reaches (Reaches.add_zero (.inl hinfinite)))
      (epsilon_le_of_reaches (.inl (habs.trans (by cases s <;> rfl))))
  | zero s =>
    rw [hx] at habs hsquare
    have hzero : (x * x).toModel.unpack = .zero .positive := hsquare.trans (by cases s <;> rfl)
    exact iff_of_false (not_epsilon_le_sqrt_of_within (Within.add_zero (.inl ⟨.positive, hzero⟩)))
      (not_epsilon_le_of_within (.inl ⟨.positive, habs.trans (by cases s <;> rfl)⟩))
  | finite s m e hm =>
    have hcanonical : Canonical (.finite s m e hm) := hx ▸ canonical_unpack _
    have hstored : Stored (.finite s m e hm) := hx ▸ stored_unpack _
    rw [hx] at habs
    have hpositive : x.abs.toModel.unpack = .finite .positive m e hm :=
      habs.trans (unpack_pack (u := .finite .positive m e hm) hcanonical hstored.2)
    rw [epsilon_le_sqrt_iff_of_finite hx, le_iff_scaled unpack_epsilon hpositive]

end Bound

end Drafting.Number
