import Drafting.Solving.Pass
import Mathlib.Data.List.Basic

/-! The order of a pass.

`solveOrder` is an insertion sort, and a stable one: a constraint passes those that
are strictly more important and stops in front of the first that is not. Two
consequences matter for the passes. The place of a constraint splits the order, and
taking the constraint out of the list takes it out of the order and moves nothing
else (`solveOrder_append_cons`, `solveOrder_append`). And the order of two lists
shuffled together is a shuffle of their orders (`Interleaved.solveOrder`). -/
namespace Drafting

theorem Priority.lt_iff {p q : Priority} : p < q ↔ p.value.toInt < q.value.toInt := Int32.lt_iff_toInt_lt

theorem Priority.lt_irrefl (p : Priority) : ¬ p < p := by
  rw [lt_iff]
  omega

theorem Priority.lt_asymm {p q : Priority} (h : p < q) : ¬ q < p := by
  rw [lt_iff] at h ⊢
  omega

theorem Priority.eq_of_not_lt {p q : Priority} (h : ¬ p < q) (h' : ¬ q < p) : p = q := by
  rw [lt_iff] at h h'
  have hvalue : p.value = q.value := Int32.toInt_inj.mp (by omega)
  cases p
  cases q
  exact congrArg Priority.mk hvalue

/-! ### Insertion -/

theorem insertByPriority_append_of_lt {c : Constraint} {hi : List Constraint} (lo : List Constraint)
    (h : ∀ d ∈ hi, c.priority < d.priority) : insertByPriority c (hi ++ lo) = hi ++ insertByPriority c lo := by
  induction hi with
  | nil => rfl
  | cons d rest ih =>
    rw [List.cons_append, insertByPriority, if_pos (h d List.mem_cons_self),
      ih fun e he => h e (List.mem_cons_of_mem _ he), List.cons_append]

theorem insertByPriority_of_not_lt {c : Constraint} {lo : List Constraint}
    (h : ∀ d ∈ lo, ¬ c.priority < d.priority) : insertByPriority c lo = c :: lo := by
  cases lo with
  | nil => rfl
  | cons d rest => rw [insertByPriority, if_neg (h d List.mem_cons_self)]

theorem insertByPriority_append_of_not_lt {c : Constraint} (hi : List Constraint) {lo : List Constraint}
    (h : ∀ d ∈ lo, ¬ c.priority < d.priority) : insertByPriority c (hi ++ lo) = insertByPriority c hi ++ lo := by
  induction hi with
  | nil => exact insertByPriority_of_not_lt h
  | cons d rest ih =>
    simp only [List.cons_append, insertByPriority, ih]
    split <;> rfl

theorem insertByPriority_perm (c : Constraint) (l : List Constraint) : (insertByPriority c l).Perm (c :: l) := by
  induction l with
  | nil => exact .refl _
  | cons d rest ih =>
    unfold insertByPriority
    split
    · exact (ih.cons d).trans (.swap c d rest)
    · exact .refl _

/-! ### The order -/

/-- A row of constraints in which none is more important than one before it. -/
def Descending (l : List Constraint) : Prop := l.Pairwise fun c d => ¬ c.priority < d.priority

theorem Descending.insertByPriority {l : List Constraint} (h : Descending l) (c : Constraint) :
    Descending (insertByPriority c l) := by
  induction l with
  | nil => exact List.pairwise_singleton _ _
  | cons d rest ih =>
    obtain ⟨hd, hrest⟩ := List.pairwise_cons.mp h
    unfold Drafting.insertByPriority
    split
    · rename_i hlt
      refine List.pairwise_cons.mpr ⟨fun e he => ?_, ih hrest⟩
      rcases List.mem_cons.mp ((insertByPriority_perm c rest).mem_iff.mp he) with rfl | he
      · exact Priority.lt_asymm hlt
      · exact hd e he
    · rename_i hlt
      refine List.pairwise_cons.mpr ⟨fun e he => ?_, h⟩
      rcases List.mem_cons.mp he with rfl | he
      · exact hlt
      · have hde := hd e he
        rw [Priority.lt_iff] at hlt hde ⊢
        omega

theorem solveOrder_cons (c : Constraint) (l : List Constraint) :
    solveOrder (c :: l) = if c.active then insertByPriority c (solveOrder l) else solveOrder l := by
  unfold solveOrder
  rw [List.filter_cons]
  split <;> rfl

theorem solveOrder_perm (l : List Constraint) : (solveOrder l).Perm (l.filter (·.active)) := by
  unfold solveOrder
  induction l.filter (·.active) with
  | nil => exact .refl _
  | cons c rest ih => exact (insertByPriority_perm c _).trans (ih.cons c)

theorem mem_solveOrder {c : Constraint} {l : List Constraint} : c ∈ solveOrder l ↔ c ∈ l ∧ c.active = true := by
  rw [(solveOrder_perm l).mem_iff, List.mem_filter]

theorem descending_solveOrder (l : List Constraint) : Descending (solveOrder l) := by
  unfold solveOrder
  induction l.filter (·.active) with
  | nil => exact .nil
  | cons c rest ih => exact ih.insertByPriority c

/-! ### The place of one constraint -/

section Place
variable (c : Constraint) (pre post : List Constraint)

/-- What is solved before a constraint that stands between two parts of a list: of the part before it
what is no less important, of the part behind it what is more important. -/
def aheadOf : List Constraint :=
  solveOrder (pre.filter (fun d => ¬ d.priority < c.priority) ++ post.filter (fun d => c.priority < d.priority))

/-- What is solved after a constraint that stands between two parts of a list. -/
def behindOf : List Constraint :=
  solveOrder (pre.filter (fun d => d.priority < c.priority) ++ post.filter (fun d => ¬ c.priority < d.priority))

end Place

variable {c : Constraint} {pre post : List Constraint}

theorem not_lt_of_mem_aheadOf {d : Constraint} (h : d ∈ aheadOf c pre post) : ¬ d.priority < c.priority := by
  have hmem := (mem_solveOrder.mp h).1
  simp only [List.mem_append, List.mem_filter, decide_eq_true_iff] at hmem
  simp only [Priority.lt_iff] at hmem ⊢
  omega

theorem not_lt_of_mem_behindOf {d : Constraint} (h : d ∈ behindOf c pre post) : ¬ c.priority < d.priority := by
  have hmem := (mem_solveOrder.mp h).1
  simp only [List.mem_append, List.mem_filter, decide_eq_true_iff] at hmem
  simp only [Priority.lt_iff] at hmem ⊢
  omega

theorem aheadOf_cons (d : Constraint) : aheadOf c (d :: pre) post =
    if d.active ∧ ¬ d.priority < c.priority then insertByPriority d (aheadOf c pre post) else aheadOf c pre post := by
  by_cases hlt : d.priority < c.priority <;> simp [aheadOf, solveOrder_cons, hlt]

theorem behindOf_cons (d : Constraint) : behindOf c (d :: pre) post =
    if d.active ∧ d.priority < c.priority then insertByPriority d (behindOf c pre post) else behindOf c pre post := by
  by_cases hlt : d.priority < c.priority <;> simp [behindOf, solveOrder_cons, hlt]

/-- With `mid` in the place of the constraint, one more constraint in front goes to its side of it. -/
theorem solveOrder_cons_place (mid : List Constraint) {l : List Constraint} (d : Constraint)
    (hmid : ∀ e ∈ mid, e.priority = c.priority)
    (h : solveOrder l = aheadOf c pre post ++ (mid ++ behindOf c pre post)) :
    solveOrder (d :: l) = aheadOf c (d :: pre) post ++ (mid ++ behindOf c (d :: pre) post) := by
  rw [solveOrder_cons, aheadOf_cons, behindOf_cons, h]
  by_cases hactive : d.active
  · by_cases hlt : d.priority < c.priority
    · have hahead : ∀ e ∈ aheadOf c pre post, d.priority < e.priority := by
        intro e he
        have hec := not_lt_of_mem_aheadOf he
        rw [Priority.lt_iff] at hlt hec ⊢
        omega
      have hpass : ∀ e ∈ mid, d.priority < e.priority := fun e he => hmid e he ▸ hlt
      simp only [hactive, hlt, insertByPriority_append_of_lt _ hahead, insertByPriority_append_of_lt _ hpass,
        not_true_eq_false, and_false, and_self, if_true, if_false]
    · have hstop : ∀ e ∈ mid ++ behindOf c pre post, ¬ d.priority < e.priority := by
        intro e he
        rcases List.mem_append.mp he with he | he
        · exact hmid e he ▸ hlt
        · have hce := not_lt_of_mem_behindOf he
          rw [Priority.lt_iff] at hlt hce ⊢
          omega
      simp only [hactive, hlt, insertByPriority_append_of_not_lt _ hstop, not_false_eq_true, and_true, and_false,
        if_true, if_false]
  · simp only [hactive, Bool.false_eq_true, false_and, if_false]

theorem solveOrder_split (c : Constraint) (post : List Constraint) :
    solveOrder post = aheadOf c [] post ++ behindOf c [] post := by
  induction post with
  | nil => rfl
  | cons d rest ih =>
    rw [solveOrder_cons, ih]
    by_cases hlt : c.priority < d.priority
    · have hstop : ∀ e ∈ behindOf c [] rest, ¬ d.priority < e.priority := by
        intro e he
        have hce := not_lt_of_mem_behindOf he
        rw [Priority.lt_iff] at hlt hce ⊢
        omega
      rw [insertByPriority_append_of_not_lt _ hstop]
      by_cases hactive : d.active <;> simp [aheadOf, behindOf, solveOrder_cons, hlt, hactive]
    · have hpass : ∀ e ∈ aheadOf c [] rest, d.priority < e.priority := by
        intro e he
        have hmem := (mem_solveOrder.mp he).1
        simp only [List.filter_nil, List.nil_append, List.mem_filter, decide_eq_true_iff] at hmem
        have hce := hmem.2
        rw [Priority.lt_iff] at hlt hce ⊢
        omega
      rw [insertByPriority_append_of_lt _ hpass]
      by_cases hactive : d.active <;> simp [aheadOf, behindOf, solveOrder_cons, hlt, hactive]

/-- A list without the constraint. -/
theorem solveOrder_append (c : Constraint) (pre post : List Constraint) :
    solveOrder (pre ++ post) = aheadOf c pre post ++ behindOf c pre post := by
  induction pre with
  | nil => exact solveOrder_split c post
  | cons d rest ih => exact solveOrder_cons_place [] d (fun _ he => absurd he List.not_mem_nil) ih

/-- **The same list with the constraint in its place.** -/
theorem solveOrder_append_cons {c : Constraint} (h : c.active = true) (pre post : List Constraint) :
    solveOrder (pre ++ c :: post) = aheadOf c pre post ++ c :: behindOf c pre post := by
  induction pre with
  | nil =>
    have hpass : ∀ e ∈ aheadOf c [] post, c.priority < e.priority := by
      intro e he
      simpa using List.of_mem_filter (mem_solveOrder.mp he).1
    rw [List.nil_append, solveOrder_cons, if_pos h, solveOrder_split c post, insertByPriority_append_of_lt _ hpass,
      insertByPriority_of_not_lt fun e he => not_lt_of_mem_behindOf he]
  | cons d rest ih => exact solveOrder_cons_place [c] d (fun e he => by rw [List.mem_singleton.mp he]) ih

/-! ### Shuffles -/

/-- The third list is a shuffle of the other two: it takes from either, always the next in its order. -/
inductive Interleaved {α : Type} : List α → List α → List α → Prop where
  | nil : Interleaved [] [] []
  | left {as bs l : List α} (a : α) : Interleaved as bs l → Interleaved (a :: as) bs (a :: l)
  | right {as bs l : List α} (b : α) : Interleaved as bs l → Interleaved as (b :: bs) (b :: l)

namespace Interleaved

variable {α : Type} {as bs l : List α}

theorem mem_iff (h : Interleaved as bs l) {a : α} : a ∈ l ↔ a ∈ as ∨ a ∈ bs := by
  induction h with
  | nil => simp
  | left _ _ ih => simp only [List.mem_cons, ih, or_assoc]
  | right _ _ ih => simp only [List.mem_cons, ih, or_left_comm]

theorem symm (h : Interleaved as bs l) : Interleaved bs as l := by
  induction h with
  | nil => exact .nil
  | left a _ ih => exact ih.right a
  | right b _ ih => exact ih.left b

end Interleaved

theorem Interleaved.insertByPriority {as bs l : List Constraint} (h : Interleaved as bs l) (hl : Descending l)
    (c : Constraint) : Interleaved (insertByPriority c as) bs (insertByPriority c l) := by
  induction h with
  | nil => exact .left c .nil
  | left a h ih =>
    unfold Drafting.insertByPriority
    split
    · exact (ih (List.pairwise_cons.mp hl).2).left a
    · exact (h.left a).left c
  | @right as bs l b h ih =>
    obtain ⟨hb, hl⟩ := List.pairwise_cons.mp hl
    rw [Drafting.insertByPriority.eq_def c (b :: l)]
    by_cases hlt : c.priority < b.priority
    · simp only [hlt, if_true]
      exact (ih hl).right b
    · -- Everything behind `b` is no more important than `b`, hence than `c`.
      have hstop : ∀ d ∈ as, ¬ c.priority < d.priority := by
        intro d hd
        have hbd := hb d (h.mem_iff.mpr (.inl hd))
        rw [Priority.lt_iff] at hlt hbd ⊢
        omega
      simp only [hlt, if_false, insertByPriority_of_not_lt hstop]
      exact (h.right b).left c

/-- **The order of a shuffle is a shuffle of the orders.** -/
theorem Interleaved.solveOrder {as bs l : List Constraint} (h : Interleaved as bs l) :
    Interleaved (solveOrder as) (solveOrder bs) (solveOrder l) := by
  induction h with
  | nil => exact .nil
  | @left as bs l a _ ih =>
    rw [solveOrder_cons, solveOrder_cons]
    split
    · exact ih.insertByPriority (descending_solveOrder l) a
    · exact ih
  | @right as bs l b _ ih =>
    rw [solveOrder_cons, solveOrder_cons]
    split
    · exact (ih.symm.insertByPriority (descending_solveOrder l) b).symm
    · exact ih

end Drafting
