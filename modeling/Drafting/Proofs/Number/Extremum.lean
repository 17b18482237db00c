import Drafting.Number.Extremum
import Drafting.Proofs.Number.Order

/-! The largest of some numbers is below a bound exactly if all of them are.

What is not a number is passed over, so it is below every bound in this sense. The
order of the numbers makes no difference (`largest_lt_congr`). -/
namespace Drafting.Number

variable {x y bound : Float}

theorem isNaN_larger (hx : x.isNaN = false) : (larger x y).isNaN = false := by
  simp only [larger, hx, Bool.false_eq_true, if_false]
  split
  · rename_i hless
    exact (lt_iff_rank.mp hless).2.1
  · exact hx

theorem larger_lt_iff (hx : x.isNaN = false) : larger x y < bound ↔ x < bound ∧ (y.isNaN = true ∨ y < bound) := by
  simp only [larger, hx, Bool.false_eq_true, if_false]
  split
  · rename_i hless
    have hy : y.isNaN = false := (lt_iff_rank.mp hless).2.1
    simp only [hy, Bool.false_eq_true, false_or]
    exact ⟨fun h => ⟨lt_trans hless h, h⟩, And.right⟩
  · rename_i hless
    refine ⟨fun h => ⟨h, ?_⟩, And.left⟩
    by_cases hy : y.isNaN = true
    · exact .inl hy
    · exact .inr (lt_of_not_lt_of_lt (Bool.not_eq_true _ ▸ hy) hless h)

theorem foldl_larger_lt_iff (xs : List Float) (hx : x.isNaN = false) :
    xs.foldl larger x < bound ↔ x < bound ∧ ∀ y ∈ xs, y.isNaN = true ∨ y < bound := by
  induction xs generalizing x with
  | nil => simp
  | cons y rest ih => rw [List.foldl_cons, ih (isNaN_larger hx), larger_lt_iff hx, List.forall_mem_cons, and_assoc]

theorem largest_lt_iff (xs : List Float) :
    largest xs < bound ↔ 0.0 < bound ∧ ∀ y ∈ xs, y.isNaN = true ∨ y < bound :=
  foldl_larger_lt_iff xs (by decide +kernel)

theorem largest_lt_congr {xs ys : List Float} (h : xs.Perm ys) : largest xs < bound ↔ largest ys < bound := by
  simp only [largest_lt_iff, h.mem_iff]

end Drafting.Number
