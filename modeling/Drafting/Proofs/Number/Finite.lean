import Mathlib

/-! Finite numbers.

A number is stored with a mantissa of 53 bits and an exponent of at most 971, and
what has a greater exponent becomes infinite when it is stored. A quotient is made
with as many bits as the mantissa holds and then rounded, which can give it one bit
more, and so an exponent that is greater by one. Half of a number has room for that:
it is finite if the number is (`isFinite_div_two`). -/
namespace Drafting.Number

open Float.Model (UnpackedFloat Format)
open Float.Model.UnpackedFloat

/-! ### Storing -/

/-- The number has an exponent that can be stored. -/
def Fits : UnpackedFloat → Prop
  | .zero _ => True
  | .finite _ _ e _ => e ≤ 971
  | _ => False

theorem isFinite_unpack {b : BitVec Format.binary64.numBits} (h : unpackExponent b ≠ -1#_) :
    (unpack Format.binary64 b).isFinite = true := by
  simp only [unpack, if_neg h]
  split
  · split <;> rfl
  · rfl

theorem isFinite_pack {f : UnpackedFloat} (h : Fits f) : (Float.Model.pack f).isFinite = true := by
  refine isFinite_unpack ?_
  show unpackExponent (pack Format.binary64 f) ≠ _
  cases f with
  | infinity s => exact h.elim
  | notANumber => exact h.elim
  | zero s =>
    rw [pack, packedZero, unpackExponent_packComponents]
    decide
  | finite s m e hm =>
    have hbiased : (e + (1023 : Nat) + (52 : Nat)).toNat < 2047 := by
      have he : e ≤ 971 := h
      omega
    show unpackExponent (if 2 ^ 11 ≤ (e + (1023 : Nat) + (52 : Nat)).toNat + 1 then packedInfinity Format.binary64 s
      else if m.log2 + 1 = 53 then
        packComponents Format.binary64 s (BitVec.ofNat 11 (e + (1023 : Nat) + (52 : Nat)).toNat) (BitVec.ofNat 52 m)
      else packComponents Format.binary64 s 0#11 (BitVec.ofNat 52 m)) ≠ _
    generalize (e + (1023 : Nat) + (52 : Nat)).toNat = biased at hbiased
    rw [if_neg (by omega)]
    split
    · rw [unpackExponent_packComponents, ne_eq, ← BitVec.toNat_inj, BitVec.toNat_ofNat, Nat.mod_eq_of_lt (by omega)]
      exact Nat.ne_of_lt hbiased
    · rw [unpackExponent_packComponents]
      decide

/-- The number is none with more than 53 bits, or with an exponent that cannot be stored. -/
def Stored : UnpackedFloat → Prop
  | .finite _ m e _ => m < 2 ^ 53 ∧ e ≤ 971
  | _ => True

theorem stored_unpack (b : BitVec Format.binary64.numBits) : Stored (unpack Format.binary64 b) := by
  have hexponent : (unpackExponent b).toNat < 2048 := (unpackExponent b).isLt
  have hmantissa : (unpackMantissa b).toNat < 2 ^ 52 := (unpackMantissa b).isLt
  unfold unpack
  dsimp only
  split
  · split <;> trivial
  · rename_i hones
    have hbelow : (unpackExponent b).toNat ≠ 2047 := fun h => hones (BitVec.eq_of_toNat_eq h)
    split
    · rename_i hzero
      split
      · trivial
      · refine ⟨Nat.lt_trans hmantissa (by decide), ?_⟩
        rw [hzero]
        decide
    · refine ⟨(1#1 ++ unpackMantissa b).isLt, ?_⟩
      show ((unpackExponent b).toNat : Int) - ((1023 : Nat) + (52 : Nat)) ≤ 971
      omega

/-! ### Rounding -/

theorem mantissa_shiftRight (em : ExtendedMantissa) (n : Nat) : (em >>> n).mantissa = em.mantissa / 2 ^ n := by
  change (n.repeat ExtendedMantissa.shiftRightOne em).mantissa = _
  induction n with
  | zero => simp [Nat.repeat]
  | succ n ih => rw [Nat.repeat, ExtendedMantissa.shiftRightOne, ih, Nat.div_div_eq_div_mul, Nat.pow_succ]

theorem roundedMantissa_le (em : ExtendedMantissa) : em.roundedMantissa ≤ em.mantissa + 1 := by
  rcases em with ⟨m, r, s⟩
  cases r <;> cases s <;>
    simp only [ExtendedMantissa.roundedMantissa, ExtendedMantissa.accuracy, Accuracy.roundToNearestEven] <;> omega

@[simp] theorem mantissa_ofMantissaAndAccuracy (m : Nat) (accuracy : Accuracy) :
    (ExtendedMantissa.ofMantissaAndAccuracy m accuracy).mantissa = m := by
  rcases accuracy with _ | _ | _ | _ <;> rfl

section Rounding
variable (m : Nat) (e : Int) (accuracy : Accuracy)

theorem exponent_shifted :
    (shiftToTargetExponent Format.binary64 m e accuracy).2 = max e (max (m.log2 + 1 + e - 53) (-1074)) := by
  show e + (((max (m.log2 + 1 + e - 53) (-1074) : Int) - e).toNat : Int) = _
  omega

/-- Shifting leaves no more than 53 bits. -/
theorem mantissa_shifted_lt : (shiftToTargetExponent Format.binary64 m e accuracy).1.mantissa < 2 ^ 53 := by
  show (ExtendedMantissa.ofMantissaAndAccuracy m accuracy >>>
    ((max (m.log2 + 1 + e - 53) (-1074) : Int) - e).toNat).mantissa < 2 ^ 53
  rw [mantissa_shiftRight, mantissa_ofMantissaAndAccuracy]
  refine Nat.div_lt_of_lt_mul (Nat.lt_log2_self.trans_le ?_)
  rw [← Nat.pow_add]
  exact Nat.pow_le_pow_right (by decide) (by omega)

/-- What is small enough fits after rounding, even if that gives it one more bit. -/
theorem fits_roundWithAccuracy {k : Nat} (s : Sign) (hm : m < 2 ^ k) (hk : k + e ≤ 1023) (he : e ≤ 970) :
    Fits (roundWithAccuracy Format.binary64 s m e accuracy) := by
  have hexponent := exponent_shifted m e accuracy
  have hmantissa := mantissa_shifted_lt m e accuracy
  unfold roundWithAccuracy
  generalize shiftToTargetExponent Format.binary64 m e accuracy = shifted at hexponent hmantissa
  obtain ⟨em, e'⟩ := shifted
  have hagain := exponent_shifted em.roundedMantissa e' .exact
  dsimp only at hexponent hmantissa ⊢
  split
  · trivial
  · show (shiftToTargetExponent Format.binary64 em.roundedMantissa e' .exact).2 ≤ 971
    have hlog : m.log2 = 0 ∨ m.log2 < k := by
      by_cases hzero : m = 0
      · exact .inl (by rw [hzero, Nat.log2_zero])
      · exact .inr ((Nat.log2_lt hzero).mpr hm)
    have hrounded : em.roundedMantissa.log2 ≤ 53 := by
      have hle := roundedMantissa_le em
      by_cases hzero : em.roundedMantissa = 0
      · rw [hzero, Nat.log2_zero]
        exact Nat.zero_le 53
      · exact Nat.lt_succ_iff.mp ((Nat.log2_lt hzero).mpr (by omega))
    omega

end Rounding

/-! ### Halving -/

theorem unpack_two : (2.0 : Float).toModel.unpack = .finite .positive (2 ^ 52) (-51) (by decide) := by
  rfl

/-- Dividing by two makes nothing too large. -/
theorem fits_div_two {s t : Sign} {m : Nat} {e : Int} (hm : 0 < m) (hbound : m < 2 ^ 53) (he : e ≤ 971) :
    Fits (div Format.binary64 (.finite s m e hm) (.finite t (2 ^ 52) (-51) (by decide))) := by
  let target : Int := min (e + 51) (max (m.log2 + 1 + e - 2 - 53) (-1074))
  have hlog : m.log2 < 53 := (Nat.log2_lt hm.ne').mpr hbound
  have htarget : target ≤ 970 ∧ target ≤ e + 51 := by omega
  show Fits (roundWithAccuracy Format.binary64 (s / t) ((m <<< (e + 51 - target).toNat) / 2 ^ 52) target _)
  refine fits_roundWithAccuracy _ _ _ _ (k := (e + 51 - target).toNat + 1) ?_ (by omega) htarget.1
  refine Nat.div_lt_of_lt_mul ?_
  calc m <<< (e + 51 - target).toNat = m * 2 ^ (e + 51 - target).toNat := Nat.shiftLeft_eq ..
    _ < 2 ^ 53 * 2 ^ (e + 51 - target).toNat := Nat.mul_lt_mul_of_pos_right hbound (Nat.two_pow_pos _)
    _ = 2 ^ 52 * 2 ^ ((e + 51 - target).toNat + 1) := by rw [Nat.pow_succ]; omega

/-- Half of a finite number is finite. -/
theorem isFinite_div_two {x : Float} (h : x.isFinite = true) : (x / 2.0).isFinite = true := by
  refine isFinite_pack (f := div Format.binary64 x.toModel.unpack (2.0 : Float).toModel.unpack) ?_
  have hstored := stored_unpack x.toModel.toBits.toBitVec
  have hfinite : x.toModel.unpack.isFinite = true := h
  rw [unpack_two]
  change Stored x.toModel.unpack at hstored
  cases hx : x.toModel.unpack with
  | infinity s =>
    rw [hx] at hfinite
    cases hfinite
  | notANumber =>
    rw [hx] at hfinite
    cases hfinite
  | zero s => trivial
  | finite s m e hm =>
    rw [hx] at hstored
    exact fits_div_two hm hstored.1 hstored.2

end Drafting.Number
