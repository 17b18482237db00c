import Drafting.Plane.Point
import Drafting.Proofs.Number.Equality

/-! Operations whose operands may change places.

A sum is what it is from either side. A difference changes its sign, or stays a
zero. Rounding and storing look at the sign only to hand it on, so what is left
when the sign is dropped (`SameSize`) is the same, and with it the square. That is
why a distance is one number from both of its ends. -/
namespace Drafting

namespace Number

open Float.Model (UnpackedFloat Format)
open Float.Model.UnpackedFloat

/-! ### Taken apart -/

theorem add_comm_unpacked (spec : Format) (u v : UnpackedFloat) : add spec u v = add spec v u := by
  cases u with
  | notANumber => cases v <;> rfl
  | infinity s => cases v with
    | infinity t => cases s <;> cases t <;> rfl
    | _ => rfl
  | zero s => cases v with
    | zero t => cases s <;> cases t <;> rfl
    | _ => rfl
  | finite s m e => cases v with
    | finite t m' e' => simp only [add, min_comm e e', Int.add_comm]
    | _ => rfl

theorem abs_round (spec : Format) (s t : Sign) (m : Nat) (e : Int) :
    (UnpackedFloat.round spec s m e).abs = (UnpackedFloat.round spec t m e).abs := by
  simp only [UnpackedFloat.round, roundWithAccuracy]
  split <;> rfl

theorem abs_normalize_neg (spec : Format) (m e : Int) (s : Sign) :
    (UnpackedFloat.normalize spec (-m) e s).abs = (UnpackedFloat.normalize spec m e s).abs := by
  unfold UnpackedFloat.normalize
  rcases lt_trichotomy m 0 with h | rfl | h
  · rw [compare_lt_iff_lt.mpr h, compare_gt_iff_gt.mpr (Int.neg_pos.mpr h)]
    exact abs_round ..
  · rfl
  · rw [compare_gt_iff_gt.mpr h, compare_lt_iff_lt.mpr (Int.neg_neg_iff_pos.mpr h), Int.neg_neg]
    exact abs_round ..

theorem abs_sub_swap (spec : Format) (u v : UnpackedFloat) : (sub spec u v).abs = (sub spec v u).abs := by
  cases u with
  | notANumber => cases v <;> rfl
  | infinity s => cases v with
    | infinity t => cases s <;> cases t <;> rfl
    | _ => rfl
  | zero s => cases v with
    | zero t => cases s <;> cases t <;> rfl
    | _ => rfl
  | finite s m e => cases v with
    | finite t m' e' =>
      simp only [sub, min_comm e' e]
      rw [← abs_normalize_neg, Int.neg_sub]
    | _ => rfl

theorem abs_unpack_packComponents (spec : Format) (s t : Sign) (e : BitVec spec.exponentBits)
    (m : BitVec spec.mantissaBitsWithoutImplicit) :
    (unpack spec (packComponents spec s e m)).abs = (unpack spec (packComponents spec t e m)).abs := by
  simp only [unpack, unpackExponent_packComponents, unpackMantissa_packComponents]
  split
  · split <;> rfl
  · split
    · split <;> rfl
    · rfl

theorem abs_unpack_pack (spec : Format) (u : UnpackedFloat) :
    (unpack spec (pack spec u)).abs = (unpack spec (pack spec u.abs)).abs := by
  cases u with
  | notANumber => rfl
  | infinity | zero => exact abs_unpack_packComponents ..
  | finite s m e hm =>
    show (unpack spec (pack spec (.finite s m e hm))).abs = (unpack spec (pack spec (.finite .positive m e hm))).abs
    simp only [pack]
    split
    · exact abs_unpack_packComponents ..
    · split <;> exact abs_unpack_packComponents ..

/-- Without its sign, a number decides its square. -/
theorem mul_self_eq_abs (spec : Format) (u : UnpackedFloat) : mul spec u u = mul spec u.abs u.abs := by
  cases u with
  | notANumber => rfl
  | infinity s | zero s | finite s => cases s <;> rfl

/-! ### Put together -/

/-- Numbers that are the same when their signs are dropped. -/
def SameSize (x y : Float) : Prop := x.toModel.unpack.abs = y.toModel.unpack.abs

variable {x y : Float}

theorem SameSize.abs_eq (h : SameSize x y) : x.abs = y.abs := congrArg (fun u => Float.ofModel (.pack u)) h

theorem SameSize.mul_self_eq (h : SameSize x y) : x * x = y * y := by
  show Float.ofModel (.pack (mul _ x.toModel.unpack _)) = Float.ofModel (.pack (mul _ y.toModel.unpack _))
  rw [mul_self_eq_abs, mul_self_eq_abs _ y.toModel.unpack, h]

theorem sameSize_sub_swap (x y : Float) : SameSize (x - y) (y - x) := by
  show (unpack _ (pack _ (sub _ _ _))).abs = (unpack _ (pack _ (sub _ _ _))).abs
  rw [abs_unpack_pack, abs_sub_swap, ← abs_unpack_pack]

theorem add_comm (x y : Float) : x + y = y + x := congrArg (fun u => Float.ofModel (.pack u)) (add_comm_unpacked ..)

end Number

/-- The distance is the same from both ends. -/
theorem Point.distance_comm (p q : Point) : p.distance q = q.distance p := by
  show ((q.x - p.x) * (q.x - p.x) + (q.y - p.y) * (q.y - p.y)).sqrt =
    ((p.x - q.x) * (p.x - q.x) + (p.y - q.y) * (p.y - q.y)).sqrt
  rw [(Number.sameSize_sub_swap q.x p.x).mul_self_eq, (Number.sameSize_sub_swap q.y p.y).mul_self_eq]

end Drafting
