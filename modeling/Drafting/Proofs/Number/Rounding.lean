import Drafting.Proofs.Number.Finite
import Drafting.Proofs.Number.Order

/-! Rounding between numbers that can be stored.

Rounding cuts off bits until 53 are left, or until the exponent is the smallest one,
and may then add one at the end. What it cuts off stands for less than one, and a
number that can be stored itself has nothing behind that place or lies below all numbers
with 53 bits there. So rounding never goes past such a number, in neither direction
(`scaled_le_size_round`, `size_round_le`). What rounding has made is `Canonical`, and
what is canonical and not too large is read as it was stored (`unpack_pack`). -/
namespace Drafting.Number

open Float.Model (UnpackedFloat Format)
open Float.Model.UnpackedFloat

/-! ### Sizes -/

/-- A mantissa with an exponent, as the fraction that it stands for. -/
def scaled (m : ℕ) (e : ℤ) : ℚ := m * 2 ^ e

section Scaled
variable {m n : ℕ} {e e' : ℤ}

theorem two_zpow_pos (e : ℤ) : (0 : ℚ) < 2 ^ e := zpow_pos (by norm_num) e

theorem scaled_lt_scaled : scaled m e < scaled n e ↔ m < n := by
  rw [scaled, scaled, mul_lt_mul_iff_left₀ (two_zpow_pos e), Nat.cast_lt]

theorem scaled_le_scaled : scaled m e ≤ scaled n e ↔ m ≤ n := by
  rw [scaled, scaled, mul_le_mul_iff_left₀ (two_zpow_pos e), Nat.cast_le]

/-- Zeros at the end of a mantissa go into the exponent. -/
theorem scaled_mul_two_pow (m k : ℕ) (e : ℤ) : scaled (m * 2 ^ k) e = scaled m (e + k) := by
  rw [scaled, scaled, zpow_add₀ two_ne_zero, zpow_natCast]
  push_cast
  ring

/-- The same number with a smaller exponent. -/
theorem scaled_eq_shifted (h : e' ≤ e) : scaled m e = scaled (m * 2 ^ (e - e').toNat) e' := by
  rw [scaled_mul_two_pow]
  congr 1
  omega

/-- A greater exponent counts for more than 53 bits. -/
theorem scaled_lt_of_exponent_lt (hm : m < 2 ^ 53) (h : e < e') : scaled m e < scaled (2 ^ 52) e' := by
  rw [scaled_eq_shifted h.le, scaled_lt_scaled]
  obtain ⟨k, hk⟩ : ∃ k, (e' - e).toNat = k + 1 := ⟨(e' - e).toNat - 1, by omega⟩
  calc m < 2 ^ 53 := hm
    _ = 2 ^ 52 * 2 ^ 1 := rfl
    _ ≤ 2 ^ 52 * 2 ^ (e' - e).toNat := Nat.mul_le_mul_left _ (Nat.pow_le_pow_right (by decide) (by omega))

/-- What is left of a mantissa without its last places, and the next greater one. -/
theorem scaled_div_bounds (m k : ℕ) (e : ℤ) :
    scaled (m / 2 ^ k) (e + k) ≤ scaled m e ∧ scaled m e < scaled (m / 2 ^ k + 1) (e + k) := by
  rw [← scaled_mul_two_pow, ← scaled_mul_two_pow, scaled_le_scaled, scaled_lt_scaled]
  exact ⟨Nat.div_mul_le_self .., (Nat.div_lt_iff_lt_mul (Nat.two_pow_pos k)).mp (Nat.lt_succ_self _)⟩

end Scaled

/-- The size of a finite number. -/
def size : UnpackedFloat → ℚ
  | .finite _ m e _ => scaled m e
  | _ => 0

/-- A finite number has 53 bits, or fewer with the smallest exponent. -/
def Canonical : UnpackedFloat → Prop
  | .finite _ m e _ => m < 2 ^ 53 ∧ -1074 ≤ e ∧ (2 ^ 52 ≤ m ∨ e = -1074)
  | _ => True

/-! ### What rounding makes -/

theorem le_roundedMantissa (em : ExtendedMantissa) : em.mantissa ≤ em.roundedMantissa := by
  rcases em with ⟨m, r, s⟩
  cases r <;> cases s <;>
    simp only [ExtendedMantissa.roundedMantissa, ExtendedMantissa.accuracy, Accuracy.roundToNearestEven] <;> omega

/-- How many bits a mantissa has too many, or more for a number that is too small to have 53. -/
def excess (m : ℕ) (e : ℤ) : ℕ := ((max (m.log2 + 1 + e - 53) (-1074) : ℤ) - e).toNat

theorem shifted_eq (m : ℕ) (e : ℤ) (accuracy : Accuracy) :
    (shiftToTargetExponent Format.binary64 m e accuracy).1.mantissa = m / 2 ^ excess m e ∧
      (shiftToTargetExponent Format.binary64 m e accuracy).2 = e + excess m e := by
  refine ⟨?_, rfl⟩
  show (ExtendedMantissa.ofMantissaAndAccuracy m accuracy >>> excess m e).mantissa = m / 2 ^ excess m e
  rw [mantissa_shiftRight, mantissa_ofMantissaAndAccuracy]

section Rounding
variable {m : ℕ} {e : ℤ}

theorem excess_of_lt (hm : m < 2 ^ 53) (he : -1074 ≤ e) : excess m e = 0 := by
  have hlog : m.log2 ≤ 52 := by
    by_cases hzero : m = 0
    · rw [hzero, Nat.log2_zero]
      exact Nat.zero_le 52
    · exact Nat.lt_succ_iff.mp ((Nat.log2_lt hzero).mpr hm)
  unfold excess
  omega

/-- A mantissa that was rounded up to 54 bits loses the last one again. -/
theorem excess_two_pow (he : -1074 ≤ e) : excess (2 ^ 53) e = 1 := by
  unfold excess
  rw [Nat.log2_two_pow]
  omega

/-- Where there are enough bits, 53 are left, or fewer with the smallest exponent. -/
theorem excess_spec (h : 2 ^ 52 ≤ m ∨ e ≤ -1074) :
    m / 2 ^ excess m e < 2 ^ 53 ∧ -1074 ≤ e + excess m e ∧
      (2 ^ 52 ≤ m / 2 ^ excess m e ∨ e + excess m e = -1074) := by
  have hlog : m < 2 ^ (m.log2 + 1) := Nat.lt_log2_self
  have hsmall : m / 2 ^ excess m e < 2 ^ 53 := by
    refine Nat.div_lt_of_lt_mul (hlog.trans_le ?_)
    rw [← Nat.pow_add]
    exact Nat.pow_le_pow_right (by decide) (by unfold excess; omega)
  refine ⟨hsmall, by unfold excess; omega, ?_⟩
  by_cases hend : e + excess m e = -1074
  · exact .inr hend
  · have hexcess : 52 + excess m e = m.log2 := by
      have hbits : 2 ^ 52 ≤ m → 52 ≤ m.log2 := fun hm => (Nat.le_log2 (by omega)).mpr hm
      unfold excess at hend ⊢
      omega
    refine .inl ((Nat.le_div_iff_mul_le (Nat.two_pow_pos _)).mpr ?_)
    rw [← Nat.pow_add, hexcess]
    exact Nat.log2_self_le (by rintro rfl; simp at hexcess)

variable (s : Sign) (accuracy : Accuracy)

/-- What rounding comes to: the bits that are left, and one more or not. -/
theorem exists_rounded (h : 2 ^ 52 ≤ m ∨ e ≤ -1074) :
    ∃ r, m / 2 ^ excess m e ≤ r ∧ r ≤ m / 2 ^ excess m e + 1 ∧
      let u := roundWithAccuracy Format.binary64 s m e accuracy
      (r = 0 ∧ u = .zero s) ∨ (∃ hr, r < 2 ^ 53 ∧ u = .finite s r (e + excess m e) hr) ∨
        (r = 2 ^ 53 ∧ u = .finite s (2 ^ 52) (e + excess m e + 1) (by decide)) := by
  obtain ⟨hmantissa, hexponent⟩ := shifted_eq m e accuracy
  obtain ⟨hsmall, hlow, _⟩ := excess_spec h
  unfold roundWithAccuracy
  generalize shiftToTargetExponent Format.binary64 m e accuracy = shifted at hmantissa hexponent
  obtain ⟨em, e'⟩ := shifted
  dsimp only at hmantissa hexponent ⊢
  rw [← hmantissa] at hsmall
  rw [← hexponent] at hlow
  rw [← hmantissa, ← hexponent]
  obtain ⟨hagain, hfinal⟩ := shifted_eq em.roundedMantissa e' .exact
  have hup := roundedMantissa_le em
  refine ⟨em.roundedMantissa, le_roundedMantissa em, hup, ?_⟩
  generalize em.roundedMantissa = r at hagain hfinal hup ⊢
  generalize shiftToTargetExponent Format.binary64 r e' .exact = final at hagain hfinal ⊢
  obtain ⟨⟨m', round, sticky⟩, e''⟩ := final
  dsimp only at hagain hfinal ⊢
  subst hagain hfinal
  rcases Nat.lt_or_ge r (2 ^ 53) with hr | hr
  · -- there is nothing to be shifted a second time
    simp only [excess_of_lt hr hlow, Nat.pow_zero, Nat.div_one, Nat.cast_zero, add_zero]
    rcases Nat.eq_zero_or_pos r with rfl | hpos
    · exact .inl ⟨rfl, rfl⟩
    · exact .inr (.inl ⟨hpos, hr, dif_neg hpos.ne'⟩)
  · obtain rfl : r = 2 ^ 53 := by omega
    simp only [excess_two_pow hlow]
    exact .inr (.inr ⟨trivial, rfl⟩)

/-- Rounding makes a zero or a finite number of the same sign. -/
theorem canonical_round (h : 2 ^ 52 ≤ m ∨ e ≤ -1074) :
    let u := roundWithAccuracy Format.binary64 s m e accuracy
    Canonical u ∧ (u = .zero s ∨ ∃ m' e' hm, u = .finite s m' e' hm) := by
  obtain ⟨_, hlow, hbits⟩ := excess_spec h
  obtain ⟨r, hdown, _, ⟨_, hu⟩ | ⟨hr, hsmall, hu⟩ | ⟨_, hu⟩⟩ := exists_rounded s accuracy h
  · exact ⟨hu ▸ trivial, .inl hu⟩
  · exact ⟨hu ▸ ⟨hsmall, hlow, hbits.imp_left hdown.trans'⟩, .inr ⟨_, _, _, hu⟩⟩
  · exact ⟨hu ▸ ⟨by decide, by omega, .inl le_rfl⟩, .inr ⟨_, _, _, hu⟩⟩

theorem size_round (h : 2 ^ 52 ≤ m ∨ e ≤ -1074) :
    ∃ r, m / 2 ^ excess m e ≤ r ∧ r ≤ m / 2 ^ excess m e + 1 ∧
      size (roundWithAccuracy Format.binary64 s m e accuracy) = scaled r (e + excess m e) := by
  obtain ⟨r, hdown, hup, hu⟩ := exists_rounded s accuracy h
  refine ⟨r, hdown, hup, ?_⟩
  rcases hu with ⟨rfl, hu⟩ | ⟨hr, _, hu⟩ | ⟨rfl, hu⟩
  · rw [hu, scaled, Nat.cast_zero, zero_mul]
    rfl
  · rw [hu]
    rfl
  · rw [hu]
    exact (scaled_mul_two_pow (2 ^ 52) 1 _).symm

/-! ### What it does not go past -/

variable {n : ℕ} {b : ℤ}

/-- A number that can be stored, and has a smaller exponent than what rounding leaves, is smaller than that. -/
theorem scaled_lt_of_stored (hn : n < 2 ^ 53) (hb : -1074 ≤ b) (h : 2 ^ 52 ≤ m ∨ e ≤ -1074)
    (hsmaller : b < e + excess m e) : scaled n b < scaled (m / 2 ^ excess m e) (e + excess m e) := by
  obtain ⟨_, _, hbits | hend⟩ := excess_spec h
  · exact (scaled_lt_of_exponent_lt hn hsmaller).trans_le (scaled_le_scaled.mpr hbits)
  · omega

/-- **What can be stored and is no greater is no greater after rounding.** -/
theorem scaled_le_size_round (hn : n < 2 ^ 53) (hb : -1074 ≤ b) (h : 2 ^ 52 ≤ m ∨ e ≤ -1074)
    (hle : scaled n b ≤ scaled m e) : scaled n b ≤ size (roundWithAccuracy Format.binary64 s m e accuracy) := by
  obtain ⟨r, hdown, _, hsize⟩ := size_round s accuracy h
  rw [hsize]
  refine le_trans ?_ (scaled_le_scaled.mpr hdown)
  rcases lt_or_ge b (e + excess m e) with hsmaller | hgreater
  · exact (scaled_lt_of_stored hn hb h hsmaller).le
  · have hnext := hle.trans_lt (scaled_div_bounds m (excess m e) e).2
    rw [scaled_eq_shifted hgreater, scaled_lt_scaled] at hnext
    rw [scaled_eq_shifted hgreater, scaled_le_scaled]
    exact Nat.lt_succ_iff.mp hnext

/-- **What can be stored and is greater is no smaller after rounding.** -/
theorem size_round_le (hn : n < 2 ^ 53) (hb : -1074 ≤ b) (h : 2 ^ 52 ≤ m ∨ e ≤ -1074)
    (hlt : scaled m e < scaled n b) : size (roundWithAccuracy Format.binary64 s m e accuracy) ≤ scaled n b := by
  obtain ⟨r, _, hup, hsize⟩ := size_round s accuracy h
  have hbelow := (scaled_div_bounds m (excess m e) e).1.trans_lt hlt
  rw [hsize]
  rcases lt_or_ge b (e + excess m e) with hsmaller | hgreater
  · exact absurd (hbelow.trans (scaled_lt_of_stored hn hb h hsmaller)) (lt_irrefl _)
  · rw [scaled_eq_shifted hgreater, scaled_lt_scaled] at hbelow
    rw [scaled_eq_shifted hgreater, scaled_le_scaled]
    exact hup.trans hbelow

end Rounding

/-! ### Storing -/


@[simp] theorem unpackSign_packComponents {spec : Format} {s : Sign} {e : BitVec spec.exponentBits}
    {m : BitVec spec.mantissaBitsWithoutImplicit} : unpackSign (packComponents spec s e m) = s.toBitVec := by
  ext i hi
  obtain rfl : i = 0 := by omega
  simp [unpackSign, packComponents, BitVec.getLsbD_append, BitVec.getElem_append]

@[simp] theorem ofBitVec_toBitVec (s : Sign) : Sign.ofBitVec s.toBitVec = s := by
  cases s <;> rfl

/-- The bit that is not stored comes first. -/
theorem toNat_one_append (m : BitVec 52) : (1#1 ++ m).toNat = 2 ^ 52 + m.toNat := by
  rw [BitVec.toNat_append]
  exact (Nat.two_pow_add_eq_or_of_lt m.isLt 1).symm

/-- What reading gives is canonical. -/
theorem canonical_unpack (b : BitVec Format.binary64.numBits) : Canonical (unpack Format.binary64 b) := by
  have hmantissa : (unpackMantissa b).toNat < 2 ^ 52 := (unpackMantissa b).isLt
  unfold unpack
  dsimp only
  split
  · split <;> trivial
  · split
    · rename_i hzero
      split
      · trivial
      · refine ⟨Nat.lt_trans hmantissa (by decide), ?_⟩
        rw [hzero]
        exact ⟨by decide, .inr (by decide)⟩
    · rename_i hexponent
      have hpos : (unpackExponent b).toNat ≠ 0 := fun h => hexponent (BitVec.eq_of_toNat_eq h)
      refine ⟨(1#1 ++ unpackMantissa b).isLt, ?_, .inl ?_⟩
      · show -1074 ≤ ((unpackExponent b).toNat : Int) - ((1023 : Nat) + (52 : Nat))
        omega
      · exact (Nat.le_add_right ..).trans_eq (toNat_one_append _).symm

section Finite
variable {s : Sign} {m : ℕ} {e : ℤ} {hm : 0 < m}

theorem unpack_pack_normal (hlow : 2 ^ 52 ≤ m) (hhigh : m < 2 ^ 53) (he : -1074 ≤ e) (hfits : e ≤ 971) :
    (Float.Model.pack (.finite s m e hm)).unpack = .finite s m e hm := by
  have hlog : m.log2 + 1 = 53 := by
    have hbelow := (Nat.log2_lt hm.ne').mpr hhigh
    have habove := (Nat.le_log2 hm.ne').mpr hlow
    omega
  let biased := (e + (1023 : Nat) + (52 : Nat)).toNat
  have hroom : ¬ 2 ^ 11 ≤ biased + 1 := by omega
  have hbiased : (BitVec.ofNat 11 biased).toNat = e + 1075 := by
    rw [BitVec.toNat_ofNat, Nat.mod_eq_of_lt (by omega)]
    omega
  have hmantissa : (1#1 ++ BitVec.ofNat 52 m).toNat = m := by
    rw [toNat_one_append, BitVec.toNat_ofNat]
    omega
  have hpack : pack Format.binary64 (.finite s m e hm) =
      packComponents Format.binary64 s (BitVec.ofNat 11 biased) (BitVec.ofNat 52 m) :=
    (if_neg hroom).trans (if_pos hlog)
  have hones : BitVec.ofNat 11 biased ≠ -1#11 := by
    intro h
    rw [h] at hbiased
    simp at hbiased
    omega
  have hzero : BitVec.ofNat 11 biased ≠ 0#11 := by
    intro h
    rw [h] at hbiased
    simp at hbiased
    omega
  show unpack Format.binary64 (pack Format.binary64 (.finite s m e hm)) = _
  rw [hpack, unpack]
  simp only [unpackMantissa_packComponents, unpackExponent_packComponents, unpackSign_packComponents, ofBitVec_toBitVec,
    if_neg hones, if_neg hzero, hmantissa, hbiased]
  congr 1
  show e + 1075 - ((1023 : Nat) + (52 : Nat)) = e
  omega

theorem unpack_pack_subnormal (hsmall : m < 2 ^ 52) :
    (Float.Model.pack (.finite s m (-1074) hm)).unpack = .finite s m (-1074) hm := by
  have hlog : m.log2 + 1 ≠ 53 := by
    have := (Nat.log2_lt hm.ne').mpr hsmall
    omega
  have hpack : pack Format.binary64 (.finite s m (-1074) hm) =
      packComponents Format.binary64 s 0#11 (BitVec.ofNat 52 m) := if_neg hlog
  have hmantissa : (BitVec.ofNat 52 m).toNat = m := by
    rw [BitVec.toNat_ofNat, Nat.mod_eq_of_lt hsmall]
  have hne : BitVec.ofNat 52 m ≠ 0#52 := fun h => hm.ne' (hmantissa.symm.trans (congrArg BitVec.toNat h))
  show unpack Format.binary64 (pack Format.binary64 (.finite s m (-1074) hm)) = _
  rw [hpack, unpack]
  simp only [unpackMantissa_packComponents, unpackExponent_packComponents, unpackSign_packComponents, ofBitVec_toBitVec,
    dif_neg hne, hmantissa]
  rfl

end Finite

/-- What is canonical and not too large is read as it was stored. -/
theorem unpack_pack {u : UnpackedFloat} (h : Canonical u) (hfits : Fits u) : (Float.Model.pack u).unpack = u := by
  cases u with
  | infinity => cases hfits
  | notANumber => cases hfits
  | zero s => cases s <;> rfl
  | finite s m e hm =>
    obtain ⟨hhigh, he, hlow⟩ := h
    by_cases hnormal : 2 ^ 52 ≤ m
    · exact unpack_pack_normal hnormal hhigh he hfits
    · obtain rfl : e = -1074 := hlow.resolve_left hnormal
      exact unpack_pack_subnormal (not_le.mp hnormal)

/-- What is too large is stored as an infinite number. -/
theorem unpack_pack_of_large {s : Sign} {m : ℕ} {e : ℤ} {hm : 0 < m} (h : 971 < e) :
    (Float.Model.pack (.finite s m e hm)).unpack = .infinity s := by
  have hlarge : 2 ^ 11 ≤ (e + (1023 : Nat) + (52 : Nat)).toNat + 1 := by omega
  have hoverflow : pack Format.binary64 (.finite s m e hm) = packedInfinity Format.binary64 s := if_pos hlarge
  show unpack Format.binary64 (pack Format.binary64 (.finite s m e hm)) = _
  rw [hoverflow]
  cases s <;> rfl

end Drafting.Number
