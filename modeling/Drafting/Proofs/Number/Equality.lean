import Mathlib

/-! Which numbers compare equal.

A number compares equal to itself, and beyond that only the two zeros do; what is
not a number compares equal to nothing. `Twin` is what two copies of a number can
be to each other after one of them missed updates that compared equal. Like
comparing equal it passes from one copy to the next (`Twin.trans`), so what was
missed does not add up. -/
namespace Drafting.Number

/-- The zeros: one of each sign. -/
def IsZero (x : Float) : Prop := x = 0 ∨ x = -0

theorem isZero_of_beq {x y : Float} (h : (x == y) = true) : x = y ∨ IsZero x ∧ IsZero y := by
  obtain ⟨_, _, heq | ⟨hx, hy⟩ | ⟨hx, hy⟩⟩ := Float.beq_iff_ne_nan_and_eq.mp h
  · exact .inl heq
  · exact .inr ⟨.inl hx, .inr hy⟩
  · exact .inr ⟨.inr hx, .inl hy⟩

theorem IsZero.beq {x y : Float} (hx : IsZero x) (hy : IsZero y) : (x == y) = true := by
  rcases hx with rfl | rfl <;> rcases hy with rfl | rfl <;> decide +kernel

theorem beq_self {x : Float} (h : x.isNaN = false) : (x == x) = true := by
  rw [Float.isNaN_eq_decide_eq_nan] at h
  exact Float.beq_self_iff.mpr (of_decide_eq_false h)

theorem beq_symm {x y : Float} (h : (x == y) = true) : (y == x) = true := by
  rcases isZero_of_beq h with rfl | ⟨hx, hy⟩
  · exact h
  · exact hy.beq hx

theorem beq_trans {x y z : Float} (h : (x == y) = true) (h' : (y == z) = true) : (x == z) = true := by
  rcases isZero_of_beq h with rfl | ⟨hx, _⟩
  · exact h'
  · rcases isZero_of_beq h' with rfl | ⟨_, hz⟩
    · exact h
    · exact hx.beq hz

/-- The same number, or numbers that compare equal. -/
def Twin (x y : Float) : Prop := x = y ∨ (x == y) = true

/-- Twins differ at most in the sign of a zero. -/
theorem twin_iff (x y : Float) : Twin x y ↔ x = y ∨ (IsZero x ∧ IsZero y) := by
  constructor
  · intro h
    rcases h with h | h
    · exact .inl h
    · exact isZero_of_beq h
  · intro h
    rcases h with h | ⟨hx, hy⟩
    · exact .inl h
    · exact .inr (hx.beq hy)

theorem Twin.refl (x : Float) : Twin x x := .inl rfl

theorem Twin.trans {x y z : Float} (h : Twin x y) (h' : Twin y z) : Twin x z := by
  rw [twin_iff] at h h' ⊢
  rcases h with rfl | ⟨hx, hy⟩
  · exact h'
  · rcases h' with rfl | ⟨_, hz⟩
    · exact .inr ⟨hx, hy⟩
    · exact .inr ⟨hx, hz⟩

end Drafting.Number
