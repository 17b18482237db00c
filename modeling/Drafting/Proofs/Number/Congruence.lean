import Drafting.Plane.Angle
import Drafting.Proofs.Number.Order
import Drafting.Proofs.Number.Symmetry

/-! Numbers that compare equal, under the operations.

Zeros can be told apart by dividing by them and by looking at their signs, but not
by adding, multiplying or comparing: of twins, sums, differences, products and
remainders are twins, and comparisons have one answer. Each operation works on a
number taken apart, so this is shown there first (`Alike`) and carried over. -/
namespace Drafting.Number

open Float.Model (UnpackedFloat Format)
open Float.Model.UnpackedFloat

/-- One number, or two zeros. -/
inductive Alike : UnpackedFloat → UnpackedFloat → Prop where
  | refl (u : UnpackedFloat) : Alike u u
  | zeros (s t : Sign) : Alike (.zero s) (.zero t)

theorem unpack_of_isZero {x : Float} (h : IsZero x) : ∃ s, x.toModel.unpack = .zero s := by
  rcases h with rfl | rfl
  · exact ⟨.positive, rfl⟩
  · exact ⟨.negative, rfl⟩

theorem isZero_pack (s : Sign) : IsZero (.ofModel (.pack (.zero s))) := by
  cases s
  · exact .inr rfl
  · exact .inl rfl

theorem Twin.unpack {x y : Float} (h : Twin x y) : Alike x.toModel.unpack y.toModel.unpack := by
  rcases (twin_iff x y).mp h with rfl | ⟨hx, hy⟩
  · exact .refl _
  · obtain ⟨s, hs⟩ := unpack_of_isZero hx
    obtain ⟨t, ht⟩ := unpack_of_isZero hy
    rw [hs, ht]
    exact .zeros s t

theorem Alike.pack {u v : UnpackedFloat} (h : Alike u v) : Twin (.ofModel (.pack u)) (.ofModel (.pack v)) := by
  cases h with
  | refl => exact .refl _
  | zeros s t => exact (twin_iff _ _).mpr (.inr ⟨isZero_pack s, isZero_pack t⟩)

/-! ### Taken apart -/

namespace Alike

variable {u u' v v' : UnpackedFloat}

theorem trans {w : UnpackedFloat} (h : Alike u v) (h' : Alike v w) : Alike u w := by
  cases h with
  | refl => exact h'
  | zeros s t => cases h' with
    | refl => exact .zeros s t
    | zeros _ r => exact .zeros s r

/-- An operation that does not tell zeros apart on either side. -/
theorem congr {op : UnpackedFloat → UnpackedFloat → UnpackedFloat}
    (hleft : ∀ s t w, Alike (op (.zero s) w) (op (.zero t) w))
    (hright : ∀ w s t, Alike (op w (.zero s)) (op w (.zero t))) (h : Alike u u') (h' : Alike v v') :
    Alike (op u v) (op u' v') := by
  have hfirst : Alike (op u v) (op u' v) := by
    cases h with
    | refl => exact .refl _
    | zeros s t => exact hleft s t v
  have hsecond : Alike (op u' v) (op u' v') := by
    cases h' with
    | refl => exact .refl _
    | zeros s t => exact hright u' s t
  exact hfirst.trans hsecond

theorem add (spec : Format) (h : Alike u u') (h' : Alike v v') :
    Alike (UnpackedFloat.add spec u v) (UnpackedFloat.add spec u' v') := by
  refine congr (fun s t w => ?_) (fun w s t => ?_) h h' <;> cases w
  case zero r | zero r => cases r <;> cases s <;> cases t <;> exact .zeros _ _
  all_goals exact .refl _

theorem sub (spec : Format) (h : Alike u u') (h' : Alike v v') :
    Alike (UnpackedFloat.sub spec u v) (UnpackedFloat.sub spec u' v') := by
  refine congr (fun s t w => ?_) (fun w s t => ?_) h h' <;> cases w
  case zero r | zero r => cases r <;> cases s <;> cases t <;> exact .zeros _ _
  all_goals exact .refl _

theorem mul (spec : Format) (h : Alike u u') (h' : Alike v v') :
    Alike (UnpackedFloat.mul spec u v) (UnpackedFloat.mul spec u' v') := by
  refine congr (fun s t w => ?_) (fun w s t => ?_) h h' <;> cases w <;> first | exact .refl _ | exact .zeros _ _

theorem neg (h : Alike u u') : Alike u.neg u'.neg := by
  cases h with
  | refl => exact .refl _
  | zeros s t => exact .zeros (-s) (-t)

theorem abs_eq (h : Alike u u') : u.abs = u'.abs := by
  cases h <;> rfl

theorem compare_eq (h : Alike u u') (h' : Alike v v') : u.compare v = u'.compare v' := by
  cases h with
  | refl => cases h' with
    | refl => rfl
    | zeros s t => cases u with
      | infinity r => cases r <;> rfl
      | finite r => cases r <;> rfl
      | _ => rfl
  | zeros s t => cases h' with
    | refl => cases v with
      | infinity r => cases r <;> rfl
      | finite r => cases r <;> rfl
      | _ => rfl
    | zeros => rfl

end Alike

/-! ### Put together -/

namespace Twin

variable {x x' y y' : Float}

theorem add (h : Twin x x') (h' : Twin y y') : Twin (x + y) (x' + y') := (h.unpack.add _ h'.unpack).pack

theorem sub (h : Twin x x') (h' : Twin y y') : Twin (x - y) (x' - y') := (h.unpack.sub _ h'.unpack).pack

theorem mul (h : Twin x x') (h' : Twin y y') : Twin (x * y) (x' * y') := (h.unpack.mul _ h'.unpack).pack

theorem neg (h : Twin x x') : Twin (-x) (-x') := h.unpack.neg.pack

theorem sameSize (h : Twin x x') : SameSize x x' := h.unpack.abs_eq

theorem lt_iff (h : Twin x x') (h' : Twin y y') : x < y ↔ x' < y' := by
  rw [lt_iff_compare, lt_iff_compare, h.unpack.compare_eq h'.unpack]

theorem le_iff (h : Twin x x') (h' : Twin y y') : x ≤ y ↔ x' ≤ y' := by
  rw [le_iff_compare, le_iff_compare, h.unpack.compare_eq h'.unpack]

/-- A zero is its own remainder. -/
theorem remainder (h : Twin x x') (y : Float) : Twin (remainder x y) (remainder x' y) := by
  rcases (twin_iff x x').mp h with rfl | ⟨hx, hx'⟩
  · exact .refl _
  · obtain ⟨s, hs⟩ := unpack_of_isZero hx
    obtain ⟨t, ht⟩ := unpack_of_isZero hx'
    simp only [Number.remainder, hs, ht]
    cases y.toModel.unpack with
    | finite | infinity => exact h
    | zero | notANumber => exact .refl _

theorem wrap (h : Twin x x') : Twin (Angle.wrap x) (Angle.wrap x') := by
  have ha := h.remainder Angle.tau
  simp only [Angle.wrap, ha.le_iff (.refl _), (Twin.refl _).lt_iff ha]
  split
  · exact ha.add (.refl _)
  · split
    · exact ha.sub (.refl _)
    · exact ha

end Twin

end Drafting.Number
