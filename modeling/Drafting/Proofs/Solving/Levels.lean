import Drafting.Proofs.Solving.Pass

/-! Levels of priority.

The constraints of one priority form a *level*. A pass takes the levels one after
the other, the more important ones first, and leaves each level in its order
(`solveOrder_level`); and a descending row of solved constraints has no other
order than the one its levels give it (`eq_solveOrder_iff`). So all that a pass sees of
a list are its levels: where constraints of different priorities stand, and which
ones are inactive, makes no difference (`Solver.run_levels`).

For the same reason a pass can be cut between two levels. If nothing behind the cut
is more important than something in front of it, the whole pass is the pass over
the front and then the pass over what is behind, in the geometry that the first one
leaves (`Solver.run_append`). Only the verdicts on the front come later. -/
namespace Drafting

/-! ### Levels of a list -/

/-- The solved constraints of one priority. -/
def Priority.level (p : Priority) (l : List Constraint) : List Constraint :=
  l.filter fun c => c.active && decide (c.priority = p)

theorem mem_level {p : Priority} {l : List Constraint} {c : Constraint} :
    c ∈ p.level l ↔ c ∈ l ∧ c.active = true ∧ c.priority = p := by
  simp [Priority.level]

theorem level_cons (p : Priority) (c : Constraint) (l : List Constraint) :
    p.level (c :: l) = if c.active = true ∧ c.priority = p then c :: p.level l else p.level l := by
  simp [Priority.level, List.filter_cons]

theorem level_append (p : Priority) (l l' : List Constraint) : p.level (l ++ l') = p.level l ++ p.level l' :=
  List.filter_append ..

theorem level_eq_nil {p : Priority} {l : List Constraint} (h : ∀ c ∈ l, c.active = true → c.priority ≠ p) :
    p.level l = [] :=
  List.eq_nil_iff_forall_not_mem.mpr fun c hc =>
    have hmem := mem_level.mp hc
    h c hmem.1 hmem.2.1 hmem.2.2

theorem level_level (p : Priority) (l : List Constraint) : p.level (p.level l) = p.level l :=
  List.filter_eq_self.mpr fun c hc => by simpa using (mem_level.mp hc).2

theorem mem_flatten_level {ps : List Priority} {l : List Constraint} {c : Constraint} :
    c ∈ (ps.map (·.level l)).flatten ↔ c ∈ l ∧ c.active = true ∧ c.priority ∈ ps := by
  simp only [List.mem_flatten, List.mem_map, exists_exists_and_eq_and, mem_level]
  constructor
  · rintro ⟨p, hp, hmem, hactive, rfl⟩
    exact ⟨hmem, hactive, hp⟩
  · exact fun ⟨hmem, hactive, hp⟩ => ⟨c.priority, hp, hmem, hactive, rfl⟩

/-- Levels put one after the other are still there. -/
theorem level_flatten {ps : List Priority} (h : ps.Nodup) {l : List Constraint}
    (hall : ∀ c ∈ l, c.active = true → c.priority ∈ ps) (p : Priority) :
    p.level (ps.map (·.level l)).flatten = p.level l := by
  by_cases hp : p ∈ ps
  · clear hall
    induction ps with
    | nil => cases hp
    | cons q rest ih =>
      obtain ⟨hq, hrest⟩ := List.nodup_cons.mp h
      rw [List.map_cons, List.flatten_cons, level_append]
      by_cases heq : q = p
      · subst heq
        have hothers : q.level (rest.map (·.level l)).flatten = [] :=
          level_eq_nil fun c hc _ hpriority => hq (hpriority ▸ (mem_flatten_level.mp hc).2.2)
        rw [level_level, hothers, List.append_nil]
      · have hfirst : p.level (q.level l) = [] :=
          level_eq_nil fun c hc _ hpriority => heq ((mem_level.mp hc).2.2.symm.trans hpriority)
        rw [hfirst, List.nil_append, ih hrest ((List.mem_cons.mp hp).resolve_left fun h => heq h.symm)]
  · have hnone : p.level l = [] := level_eq_nil fun c hc hactive hpriority => hp (hpriority ▸ hall c hc hactive)
    rw [hnone]
    exact level_eq_nil fun c hc _ hpriority => hp (hpriority ▸ (mem_flatten_level.mp hc).2.2)

/-- Inserting a constraint puts it in front of its level and leaves all others alone. -/
theorem level_insertByPriority (p : Priority) (c : Constraint) (l : List Constraint) :
    p.level (insertByPriority c l) = p.level (c :: l) := by
  induction l with
  | nil => rfl
  | cons d rest ih =>
    unfold insertByPriority
    split
    · rename_i hlt
      rw [level_cons p d, ih, level_cons p c, level_cons p c, level_cons p d]
      by_cases hc : c.active = true ∧ c.priority = p
      · -- What is passed is of another priority, so it is not of this level.
        have hd : ¬ (d.active = true ∧ d.priority = p) := fun hd => by
          rw [hc.2, hd.2] at hlt
          exact Priority.lt_irrefl p hlt
        simp only [if_pos hc, if_neg hd]
      · simp only [if_neg hc]
    · rfl

/-- **The order keeps every level as it is.** -/
theorem solveOrder_level (p : Priority) (l : List Constraint) : p.level (solveOrder l) = p.level l := by
  induction l with
  | nil => rfl
  | cons c rest ih =>
    rw [solveOrder_cons, level_cons]
    by_cases hactive : c.active = true
    · rw [if_pos hactive, level_insertByPriority, level_cons, ih]
    · rw [if_neg hactive, if_neg fun h => hactive h.1, ih]

/-! ### The order from its levels -/

theorem subset_of_level_eq {l l' : List Constraint} (hactive : ∀ c ∈ l, c.active = true)
    (hlevel : ∀ p : Priority, p.level l = p.level l') : l ⊆ l' := by
  intro c hc
  have hmem : c ∈ c.priority.level l := mem_level.mpr ⟨hc, hactive c hc, rfl⟩
  rw [hlevel] at hmem
  exact (mem_level.mp hmem).1

theorem Descending.not_lt_head {c d : Constraint} {l : List Constraint} (h : Descending (c :: l)) (hd : d ∈ c :: l) :
    ¬ c.priority < d.priority := by
  rcases List.mem_cons.mp hd with rfl | hd
  · exact Priority.lt_irrefl _
  · exact (List.pairwise_cons.mp h).1 d hd

/-- **A descending row of active constraints is determined by its levels.** -/
theorem Descending.ext_level {l l' : List Constraint} (h : Descending l) (h' : Descending l')
    (hactive : ∀ c ∈ l, c.active = true) (hactive' : ∀ c ∈ l', c.active = true)
    (hlevel : ∀ p : Priority, p.level l = p.level l') : l = l' := by
  induction l generalizing l' with
  | nil => exact (List.subset_nil.mp (subset_of_level_eq hactive' fun p => (hlevel p).symm)).symm
  | cons c rest ih =>
    cases l' with
    | nil => exact List.subset_nil.mp (subset_of_level_eq hactive hlevel)
    | cons d rest' =>
      obtain ⟨hc, hrest⟩ := List.forall_mem_cons.mp hactive
      obtain ⟨hd, hrest'⟩ := List.forall_mem_cons.mp hactive'
      have hcd : c ∈ d :: rest' := subset_of_level_eq hactive hlevel List.mem_cons_self
      have hdc : d ∈ c :: rest := subset_of_level_eq hactive' (fun p => (hlevel p).symm) List.mem_cons_self
      have hpriority : c.priority = d.priority := Priority.eq_of_not_lt (h.not_lt_head hdc) (h'.not_lt_head hcd)
      -- Both stand at the head of the same level.
      have hhead : c = d := by
        have hfirst := hlevel c.priority
        rw [level_cons, level_cons, if_pos ⟨hc, rfl⟩, if_pos ⟨hd, hpriority.symm⟩] at hfirst
        exact (List.cons.inj hfirst).1
      subst hhead
      refine congrArg (c :: ·) (ih (List.pairwise_cons.mp h).2 (List.pairwise_cons.mp h').2 hrest hrest' fun p => ?_)
      have hp := hlevel p
      rw [level_cons, level_cons] at hp
      split at hp
      · exact (List.cons.inj hp).2
      · exact hp

/-- The order is the one descending row of active constraints with the levels of the list. -/
theorem eq_solveOrder_iff {l k : List Constraint} :
    k = solveOrder l ↔
      Descending k ∧ (∀ c ∈ k, c.active = true) ∧ ∀ p : Priority, p.level k = p.level l := by
  have hactive : ∀ c ∈ solveOrder l, c.active = true := fun c hc => (mem_solveOrder.mp hc).2
  constructor
  · rintro rfl
    exact ⟨descending_solveOrder l, hactive, fun p => solveOrder_level p l⟩
  · rintro ⟨h, hk, hlevel⟩
    exact h.ext_level (descending_solveOrder l) hk hactive fun p => (hlevel p).trans (solveOrder_level p l).symm

theorem solveOrder_congr {l l' : List Constraint} (h : ∀ p : Priority, p.level l' = p.level l) :
    solveOrder l' = solveOrder l := by
  refine eq_solveOrder_iff.mpr ⟨descending_solveOrder l', fun c hc => (mem_solveOrder.mp hc).2, fun p => ?_⟩
  rw [solveOrder_level, h]

/-! ### Cuts between levels -/

/-- No active constraint of the second list is more important than one of the first. -/
def Outranks (as bs : List Constraint) : Prop :=
  ∀ a ∈ as, a.active = true → ∀ b ∈ bs, b.active = true → ¬ a.priority < b.priority

instance (as bs : List Constraint) : Decidable (Outranks as bs) :=
  inferInstanceAs (Decidable (∀ a ∈ as, a.active = true → ∀ b ∈ bs, b.active = true → ¬ a.priority < b.priority))

theorem Outranks.solveOrder_append {as bs : List Constraint} (h : Outranks as bs) :
    solveOrder (as ++ bs) = solveOrder as ++ solveOrder bs := by
  induction as with
  | nil => rfl
  | cons a rest ih =>
    obtain ⟨ha, hrest⟩ := List.forall_mem_cons.mp h
    rw [List.cons_append, solveOrder_cons, solveOrder_cons, ih hrest]
    split
    · rename_i hactive
      have hstop : ∀ b ∈ solveOrder bs, ¬ a.priority < b.priority := fun b hb =>
        ha hactive b (mem_solveOrder.mp hb).1 (mem_solveOrder.mp hb).2
      exact insertByPriority_append_of_not_lt _ hstop
    · rfl

/-! ### Passes -/

/-- Solutions of one turn: what the turn did is the same, and only the judgement on it may differ. -/
structure Solution.SameTurn (a b : Solution) : Prop where
  constraint : a.constraint = b.constraint
  updates : a.updates = b.updates
  iterations : a.iterations = b.iterations

theorem Attempt.verdict_sameTurn (settings : SolverSettings) (a : Attempt) (final final' : Snapshot) :
    (a.verdict settings final).SameTurn (a.verdict settings final') := by
  constructor <;> simp

namespace Solver

variable (solver : Solver) (observer : Observer) (snapshot : Snapshot)

/-- **A pass sees nothing of a list but its levels.** It has one solution for each active constraint, the more
important ones first, and in a level in the order of the list; and lists with the same levels have the same
pass, with the same solutions, geometry, report and log. -/
theorem run_levels (l : List Constraint) :
    let pass := solver.run observer l snapshot
    (pass.solutions.map (·.constraint) = (solveOrder l).map (·.id) ∧
      (solveOrder l).Perm (l.filter (·.active)) ∧
      Descending (solveOrder l) ∧
      ∀ p : Priority, p.level (solveOrder l) = p.level l) ∧
    ∀ l', (∀ p : Priority, p.level l' = p.level l) → solver.run observer l' snapshot = pass := by
  intro pass
  refine ⟨⟨solver.run_constraints observer l snapshot, solveOrder_perm l, descending_solveOrder l,
    fun p => solveOrder_level p l⟩, fun l' h => ?_⟩
  simp only [pass, run, solveOrder_congr h]

/-- A point that is fixed at a place. -/
def pin (number : BitVec 128) (priority : Priority) (target : Point) : Constraint :=
  { Constraint.bare number .fix [⟨⟨1⟩⟩] with priority, parameters := .ofList [(.point, .point target)] }

/-- A single point. -/
def single : Snapshot := .ofList [(⟨⟨1⟩⟩, .point ⟨0.0, 0.0⟩)]

/-- Of two constraints of one priority the later one has the last word, wherever a more important one and an
inactive one stand. -/
theorem run_levels_single :
    let first := pin 1 .normal ⟨5.0, 0.0⟩
    let last := pin 2 .normal ⟨0.0, 5.0⟩
    let high := pin 3 .high ⟨9.0, 9.0⟩
    let off := { pin 4 .low ⟨1.0, 1.0⟩ with active := false }
    let solver : Solver := ⟨{}⟩
    let pass := solver.run .silent [first, off, high, last] single
    pass.solutions.map (·.constraint) = [high.id, first.id, last.id] ∧
      pass.geometry.get? ⟨⟨1⟩⟩ = some (.point ⟨0.0, 5.0⟩) ∧
      solver.run .silent [high, first, last] single = pass := by
  intro first last high off solver pass
  obtain ⟨⟨hsolutions, _⟩, hsame⟩ := solver.run_levels .silent single [first, off, high, last]
  refine ⟨hsolutions.trans (by decide +kernel), by decide +kernel, hsame _ fun p => ?_⟩
  by_cases hnormal : Priority.normal = p
  · subst hnormal
    decide +kernel
  · have hfirst : ¬ (first.active = true ∧ first.priority = p) := fun h => hnormal h.2
    have hlast : ¬ (last.active = true ∧ last.priority = p) := fun h => hnormal h.2
    have hoff : ¬ (off.active = true ∧ off.priority = p) := fun h => nomatch h.1
    simp only [level_cons, if_neg hfirst, if_neg hlast, if_neg hoff]

/-- The geometry of a pass that is cut between two levels. -/
theorem run_geometry_append {as bs : List Constraint} (h : Outranks as bs) :
    (solver.run observer (as ++ bs) snapshot).geometry =
      (solver.run observer bs (solver.run observer as snapshot).geometry).geometry := by
  simp only [run_geometry, h.solveOrder_append, attempts_append]

/-- **A pass is two passes, one after the other,** wherever its list is cut between two levels. The second starts
from the geometry that the first one leaves. The solutions are those of the second pass after those of the first,
with the same updates and iterations; only the verdicts on the first part are made again, on the later geometry. -/
theorem run_append {as bs : List Constraint} (h : Outranks as bs) :
    let whole := solver.run observer (as ++ bs) snapshot
    let first := solver.run observer as snapshot
    let second := solver.run observer bs first.geometry
    whole.geometry = second.geometry ∧
    whole.solutions.map (·.constraint) = (solveOrder as).map (·.id) ++ (solveOrder bs).map (·.id) ∧
    ∃ revised, whole.solutions = revised ++ second.solutions ∧
      List.Forall₂ Solution.SameTurn revised first.solutions := by
  intro whole first second
  have hgeometry : whole.geometry = second.geometry := solver.run_geometry_append observer snapshot h
  have hsolutions : whole.solutions =
      (attempts observer solver.settings (solveOrder as) snapshot).1.map (·.verdict solver.settings second.geometry) ++
        second.solutions := by
    rw [run_solutions, hgeometry, h.solveOrder_append, attempts_append, List.map_append]
    rfl
  refine ⟨hgeometry, ?_, _, hsolutions, ?_⟩
  · rw [run_constraints, h.solveOrder_append, List.map_append]
  · rw [run_solutions, List.forall₂_map_left_iff, List.forall₂_map_right_iff, List.forall₂_same]
    exact fun a _ => a.verdict_sameTurn solver.settings _ _

/-- A more important constraint holds when its own pass ends, and is undone behind the cut: its turn is the same
in the whole pass, and the verdict on it is not. -/
theorem run_append_single :
    let high := pin 1 .high ⟨9.0, 9.0⟩
    let off := { pin 2 .low ⟨1.0, 1.0⟩ with active := false }
    let normal := pin 3 .normal ⟨5.0, 0.0⟩
    let solver : Solver := ⟨{}⟩
    let whole := solver.run .silent ([off, high] ++ [normal]) single
    let first := solver.run .silent [off, high] single
    let second := solver.run .silent [normal] first.geometry
    whole.geometry = second.geometry ∧
      (∃ revised, whole.solutions = revised ++ second.solutions ∧
        List.Forall₂ Solution.SameTurn revised first.solutions) ∧
      first.solutions.map (·.satisfied) = [true] ∧ whole.solutions.map (·.satisfied) = [false, true] := by
  intro high off normal solver whole first second
  have hcut : Outranks [off, high] [normal] := by decide +kernel
  obtain ⟨hgeometry, _, hturns⟩ := solver.run_append .silent single hcut
  exact ⟨hgeometry, hturns, by decide +kernel, by decide +kernel⟩

/-- A row of lists, each outranking those behind it, is passed over list by list. -/
theorem run_geometry_flatten {parts : List (List Constraint)} (h : parts.Pairwise Outranks) :
    (solver.run observer parts.flatten snapshot).geometry =
      parts.foldl (fun s part => (solver.run observer part s).geometry) snapshot := by
  induction parts generalizing snapshot with
  | nil => rfl
  | cons part rest ih =>
    obtain ⟨hpart, hrest⟩ := List.pairwise_cons.mp h
    have hcut : Outranks part rest.flatten := by
      intro a ha hactive b hb
      obtain ⟨other, hother, hb⟩ := List.mem_flatten.mp hb
      exact hpart other hother a ha hactive b hb
    rw [List.flatten_cons, solver.run_geometry_append observer snapshot hcut, ih _ hrest, List.foldl_cons]

/-- A pass is the passes over its levels, one after the other. -/
theorem run_geometry_levels {l : List Constraint} {ps : List Priority} (h : ps.Pairwise fun p q => q < p)
    (hall : ∀ c ∈ l, c.active = true → c.priority ∈ ps) :
    (solver.run observer l snapshot).geometry =
      ps.foldl (fun s p => (solver.run observer (p.level l) s).geometry) snapshot := by
  have hparts : (ps.map (·.level l)).Pairwise Outranks := by
    refine List.pairwise_map.mpr (h.imp fun {p q} hlt a ha _ b hb _ => ?_)
    rw [(mem_level.mp ha).2.2, (mem_level.mp hb).2.2]
    exact Priority.lt_asymm hlt
  have hdistinct : ps.Nodup := h.imp fun {p q} hlt (heq : p = q) => by
    rw [heq] at hlt
    exact Priority.lt_irrefl q hlt
  rw [run_geometry, ← solveOrder_congr (level_flatten hdistinct hall), ← run_geometry,
    solver.run_geometry_flatten observer snapshot hparts, List.foldl_map]

end Solver

end Drafting
