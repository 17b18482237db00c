import Mathlib

/-! Which numbers are less than others.

Less and less-or-equal both read one comparison, which has no answer if either side
is not a number. Turned around, the comparison has the opposite answer
(`compare_swap`), so a number that is below a bound does not reach it. The converse
fails: what is not a number is neither below a bound nor reaches it.

What is a number has a `rank`, and comparing numbers is comparing ranks
(`lt_iff_rank`). The ranks are in a line, and so are the numbers among themselves. -/
namespace Drafting.Number

open Float.Model (UnpackedFloat)

theorem lt_iff_compare {x y : Float} : x < y ↔ x.toModel.unpack.compare y.toModel.unpack = some .lt :=
  decide_eq_true_iff.trans beq_iff_eq

theorem le_iff_compare {x y : Float} : x ≤ y ↔ (x.toModel.unpack.compare y.toModel.unpack).any (·.isLE) = true :=
  decide_eq_true_iff

/-- The comparison from the other side. -/
theorem compare_swap (a b : UnpackedFloat) : b.compare a = (a.compare b).map Ordering.swap := by
  have hsigns : ∀ s t : UnpackedFloat.Sign, compare t s = (compare s t).swap := by decide
  cases a with
  | infinity s => cases b with
    | infinity t => simp [UnpackedFloat.compare, hsigns s t]
    | notANumber => cases s <;> rfl
    | zero t => cases s <;> rfl
    | finite t => cases s <;> rfl
  | notANumber => cases b <;> rfl
  | zero s => cases b with
    | infinity t => cases t <;> rfl
    | notANumber => rfl
    | zero t => rfl
    | finite t => cases t <;> rfl
  | finite s m e => cases b with
    | infinity t => cases t <;> rfl
    | notANumber => rfl
    | zero t => cases s <;> rfl
    | finite t m' e' =>
      have hmantissas : compare m' m = (compare m m').swap := Std.OrientedCmp.eq_swap
      have hexponents : compare e' e = (compare e e').swap := Std.OrientedCmp.eq_swap
      cases s <;> cases t <;> simp [UnpackedFloat.compare, hmantissas, hexponents, Ordering.swap_then]

theorem not_le_of_lt {x y : Float} (h : x < y) : ¬ y ≤ x := by
  intro hle
  rw [le_iff_compare, compare_swap, lt_iff_compare.mp h] at hle
  cases hle

/-! ### Numbers

What is a number compares with every other number, so that of two of them one reaches the other exactly
if it is not below it. -/

theorem exists_compare {a b : UnpackedFloat} (ha : a.isNaN = false) (hb : b.isNaN = false) :
    ∃ o, a.compare b = some o := by
  rcases a with (_ | _) | _ | _ | ⟨_ | _, m, e, _⟩ <;> rcases b with (_ | _) | _ | _ | ⟨_ | _, m', e', _⟩ <;>
    first | exact ⟨_, rfl⟩ | simp [UnpackedFloat.isNaN] at ha hb

theorem not_le_iff {x y : Float} (hx : x.isNaN = false) (hy : y.isNaN = false) : ¬ x ≤ y ↔ y < x := by
  obtain ⟨o, ho⟩ := exists_compare hx hy
  have hswap : y.toModel.unpack.compare x.toModel.unpack = some o.swap := by rw [compare_swap, ho, Option.map_some]
  rw [le_iff_compare, lt_iff_compare, hswap, ho]
  cases o <;> decide

theorem isNaN_of_le {x y : Float} (h : x ≤ y) : y.isNaN = false := by
  rw [le_iff_compare] at h
  change y.toModel.unpack.isNaN = false
  cases hy : y.toModel.unpack with
  | notANumber =>
    rw [hy] at h
    cases hx : x.toModel.unpack <;> rw [hx] at h <;> cases h
  | _ => rfl

theorem isNaN_of_isFinite {x : Float} (h : x.isFinite = true) : x.isNaN = false := by
  change x.toModel.unpack.isFinite = true at h
  change x.toModel.unpack.isNaN = false
  cases hx : x.toModel.unpack <;> rw [hx] at h <;> first | rfl | cases h

/-! ### Ranks -/

/-- Where a number stands: the infinities outermost, then by exponent, then by mantissa, both turned
around below zero. -/
def rank : UnpackedFloat → Int ×ₗ Int ×ₗ Int
  | .infinity .negative => toLex (-2, toLex (0, 0))
  | .finite .negative m e _ => toLex (-1, toLex (-e, -m))
  | .zero _ | .notANumber => toLex (0, toLex (0, 0))
  | .finite .positive m e _ => toLex (1, toLex (e, m))
  | .infinity .positive => toLex (2, toLex (0, 0))

theorem compare_eq_lt_iff (a b : UnpackedFloat) :
    a.compare b = some .lt ↔ a.isNaN = false ∧ b.isNaN = false ∧ rank a < rank b := by
  have hsigns (s t : UnpackedFloat.Sign) : compare s t = .lt ↔ s = .negative ∧ t = .positive := by
    cases s <;> cases t <;> first | exact iff_of_true rfl ⟨rfl, rfl⟩ | simp
  have hless (e e' : Int) (m m' : Nat) : (compare e e').then (compare m m') = .lt ↔ e < e' ∨ e = e' ∧ m < m' := by
    rw [Ordering.then_eq_lt, compare_lt_iff_lt, compare_eq_iff_eq, compare_lt_iff_lt]
  have hgreater (e e' : Int) (m m' : Nat) : (compare e e').then (compare m m') = .gt ↔ e' < e ∨ e = e' ∧ m' < m := by
    rw [Ordering.then_eq_gt, compare_gt_iff_gt, compare_eq_iff_eq, compare_gt_iff_gt]
  -- one case for each pair of lines in the definition of the rank
  rcases a with (_ | _) | _ | _ | ⟨_ | _, m, e, _⟩ <;> rcases b with (_ | _) | _ | _ | ⟨_ | _, m', e', _⟩ <;>
    simp [UnpackedFloat.compare, UnpackedFloat.isNaN, rank, Prod.Lex.toLex_lt_toLex, hsigns, hless, hgreater]

section Line
variable {x y z : Float}

theorem lt_iff_rank :
    x < y ↔ x.isNaN = false ∧ y.isNaN = false ∧ rank x.toModel.unpack < rank y.toModel.unpack :=
  lt_iff_compare.trans (compare_eq_lt_iff ..)

theorem lt_trans (h : x < y) (h' : y < z) : x < z := by
  obtain ⟨hx, _, hxy⟩ := lt_iff_rank.mp h
  obtain ⟨_, hz, hyz⟩ := lt_iff_rank.mp h'
  exact lt_iff_rank.mpr ⟨hx, hz, hxy.trans hyz⟩

/-- What a number is not below is no greater. -/
theorem lt_of_not_lt_of_lt (hx : x.isNaN = false) (h : ¬ y < x) (h' : y < z) : x < z := by
  obtain ⟨hy, hz, hyz⟩ := lt_iff_rank.mp h'
  have hxy : rank x.toModel.unpack ≤ rank y.toModel.unpack :=
    not_lt.mp fun hless => h (lt_iff_rank.mpr ⟨hy, hx, hless⟩)
  exact lt_iff_rank.mpr ⟨hx, hz, hxy.trans_lt hyz⟩

end Line

end Drafting.Number
