import Drafting.Proofs.Number.Finite
import Drafting.Proofs.Number.Order

/-! Differences of finite numbers.

Storing loses nothing that matters here: what is a number, if an infinite one, is
stored as a number (`isNaN_pack`). A difference of finite numbers is rounded to
a zero or to something finite before it is stored. It may be too large, but it is
a number (`isNaN_sub`), and so is its size. And a finite number minus itself is
zero exactly (`abs_sub_self`). -/
namespace Drafting.Number

open Float.Model (UnpackedFloat Format)
open Float.Model.UnpackedFloat

/-! ### Storing numbers -/

theorem isNaN_unpack {b : BitVec Format.binary64.numBits} (h : unpackExponent b = -1#_ → unpackMantissa b = 0#_) :
    (unpack Format.binary64 b).isNaN = false := by
  unfold unpack
  dsimp only
  split
  · rename_i hones
    rw [if_pos (h hones)]
    rfl
  · split
    · split <;> rfl
    · rfl

theorem isNaN_packedInfinity (s : Sign) : (unpack Format.binary64 (packedInfinity Format.binary64 s)).isNaN = false :=
  isNaN_unpack fun _ => unpackMantissa_packComponents

/-- What is a number is stored as a number. -/
theorem isNaN_pack {u : UnpackedFloat} (h : u.isNaN = false) : (Float.Model.pack u).isNaN = false := by
  cases u with
  | notANumber => cases h
  | infinity s => exact isNaN_packedInfinity s
  | zero s => exact isNaN_unpack fun _ => unpackMantissa_packComponents
  | finite s m e hm =>
    by_cases hfits : e ≤ 971
    · exact isNaN_of_isFinite (x := .ofModel (.pack (.finite s m e hm))) (isFinite_pack hfits)
    · have hlarge : 2 ^ 11 ≤ (e + (1023 : Nat) + (52 : Nat)).toNat + 1 := by omega
      have hoverflow : pack Format.binary64 (.finite s m e hm) = packedInfinity Format.binary64 s := if_pos hlarge
      show (unpack Format.binary64 (pack Format.binary64 (.finite s m e hm))).isNaN = false
      rw [hoverflow]
      exact isNaN_packedInfinity s

/-! ### Taking away -/

theorem isNaN_normalize (spec : Format) (m e : Int) (s : Sign) :
    (UnpackedFloat.normalize spec m e s).isNaN = false := by
  unfold UnpackedFloat.normalize UnpackedFloat.round roundWithAccuracy
  dsimp only
  split <;> first | rfl | (split <;> rfl)

variable {x y : Float}

/-- The difference of finite numbers is a number. -/
theorem isNaN_sub (hx : x.isFinite = true) (hy : y.isFinite = true) : (x - y).isNaN = false := by
  change x.toModel.unpack.isFinite = true at hx
  change y.toModel.unpack.isFinite = true at hy
  refine isNaN_pack (u := sub Format.binary64 x.toModel.unpack y.toModel.unpack) ?_
  cases hu : x.toModel.unpack with
  | infinity | notANumber =>
    rw [hu] at hx
    cases hx
  | zero s => cases hv : y.toModel.unpack with
    | infinity | notANumber =>
      rw [hv] at hy
      cases hy
    | zero t => cases s <;> cases t <;> rfl
    | finite => rfl
  | finite s m e => cases hv : y.toModel.unpack with
    | infinity | notANumber =>
      rw [hv] at hy
      cases hy
    | zero => rfl
    | finite => exact isNaN_normalize ..

theorem isNaN_abs (h : x.isNaN = false) : x.abs.isNaN = false := by
  change x.toModel.unpack.isNaN = false at h
  refine isNaN_pack (u := x.toModel.unpack.abs) ?_
  cases hu : x.toModel.unpack with
  | notANumber =>
    rw [hu] at h
    cases h
  | _ => rfl

/-- A finite number minus itself leaves the positive zero. -/
theorem sub_self (h : x.isFinite = true) : x - x = 0.0 := by
  change x.toModel.unpack.isFinite = true at h
  have hzero : sub Format.binary64 x.toModel.unpack x.toModel.unpack = .zero .positive := by
    cases hu : x.toModel.unpack with
    | infinity | notANumber =>
      rw [hu] at h
      cases h
    | zero s => cases s <;> rfl
    | finite s m e => simp [sub, UnpackedFloat.normalize]
  exact congrArg (fun u => Float.ofModel (.pack u)) hzero

theorem abs_sub_self (h : x.isFinite = true) : (x - x).abs = 0.0 := by
  rw [sub_self h]
  rfl

end Drafting.Number
