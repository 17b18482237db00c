import Drafting.Proofs.Entity.Numeric
import Drafting.Proofs.Number.Order
import Drafting.Proofs.Solving.Verdict

/-! Drawings at rest.

Where a constraint holds its turn does nothing at all: no step is made, and the
next constraint finds the same geometry (`Constraint.attempt_of_holds`). So if all
constraints of a pass hold in one geometry, each of them finds that geometry in its
turn, and the pass leaves it as it is (`Solver.run_of_holds`). After a pass in which
every constraint was satisfied this is the case, because verdicts are about the
geometry that the pass ended with, whatever a constraint found in its own turn. A
second pass therefore has nothing to do (`Solver.run_again`). -/
namespace Drafting

/-- The observer takes note of constraints that hold, and interrupts none of them. -/
def Observer.Hears (observer : Observer) : Prop := ∀ id kind r, observer (.settled id kind 0 r) = none

theorem Observer.hears_silent : Observer.silent.Hears := fun _ _ _ => rfl

/-- A pass over some constraints that finds a geometry in which nothing is left to do. -/
structure Pass.AtRest (l : List Constraint) (geometry : Snapshot) (pass : Pass) : Prop where
  geometry_eq : pass.geometry = geometry
  satisfied : ∀ solution ∈ pass.solutions, solution.satisfied = true
  iterations : ∀ solution ∈ pass.solutions, solution.iterations = 0
  error : ∀ solution ∈ pass.solutions, solution.error = none
  /-- What is not a number looks changed even where nothing was done. -/
  updates : geometry.NumericOn (mentioned l) → ∀ solution ∈ pass.solutions, solution.updates = .empty

/-! ### Turns -/

section Turns
variable {observer : Observer} {settings : SolverSettings} {c : Constraint} {snapshot : Snapshot}

theorem Course.of_holds {r : Float} (hr : c.residual snapshot = .ok r) (hless : r < settings.tolerance) :
    of settings c snapshot = ⟨[⟨snapshot, r⟩], .settled, snapshot⟩ := by
  have hbelow : ¬ settings.tolerance ≤ r := Number.not_le_of_lt hless
  simp only [of, hr]
  cases settings.maxIterations.toNat with
  | zero => simp only [pursue, if_neg hbelow]
  | succ budget => simp only [pursue, if_neg hbelow]

/-- The turn of a constraint that holds makes no step. -/
theorem Constraint.attempt_of_holds (hhears : observer.Hears) (h : c.Holds settings snapshot) :
    let own := c.attempt observer settings snapshot
    own.geometry = snapshot ∧ own.error = none ∧ own.iterations = 0 ∧
      own.updates = Snapshot.changes (snapshot.restrict c.entities) snapshot := by
  obtain ⟨r, hr, hless⟩ := h
  have hevents : Course.events c ⟨[⟨snapshot, r⟩], .settled, snapshot⟩ = [.settled c.id c.kind 0 r] := rfl
  have hheard : observer.hear [.settled c.id c.kind 0 r] = ([.settled c.id c.kind 0 r], none) := by
    simp only [Observer.hear, hhears c.id c.kind r]
  rw [attempt_eq, Course.of_holds hr hless, hevents, hheard]
  exact ⟨rfl, rfl, rfl, rfl⟩

/-- The verdict on such a turn, where the turn was made. -/
theorem Constraint.verdict_of_holds (hhears : observer.Hears) (h : c.Holds settings snapshot) :
    let solution := (c.attempt observer settings snapshot).verdict settings snapshot
    solution.satisfied = true ∧ solution.iterations = 0 ∧ solution.error = none ∧
      solution.updates = Snapshot.changes (snapshot.restrict c.entities) snapshot := by
  intro solution
  obtain ⟨_, herror, hiterations, hupdates⟩ := attempt_of_holds hhears h
  have htruthful : solution.Truthful settings _ snapshot := Attempt.verdict_truthful ..
  have hsatisfied : solution.satisfied = true := by
    rw [htruthful.satisfied_iff_holds, attempt_constraint]
    exact ⟨herror, h⟩
  refine ⟨hsatisfied, ?_, (htruthful.satisfied.mp hsatisfied).1, ?_⟩
  · rw [Attempt.verdict_iterations, hiterations]
  · rw [Attempt.verdict_updates, hupdates]

/-- Constraints that hold leave each other what they found. -/
theorem attempts_of_holds (hhears : observer.Hears) {l : List Constraint} (h : ∀ c ∈ l, c.Holds settings snapshot) :
    attempts observer settings l snapshot = (l.map (·.attempt observer settings snapshot), snapshot) := by
  induction l with
  | nil => rfl
  | cons c rest ih =>
    obtain ⟨hc, hrest⟩ := List.forall_mem_cons.mp h
    have hsame := (Constraint.attempt_of_holds hhears hc).1
    simp only [attempts, hsame, ih hrest, List.map_cons]

end Turns

/-! ### Passes -/

namespace Solver

variable (solver : Solver) {l : List Constraint} {snapshot : Snapshot}

/-- A pass over a geometry in which all its constraints hold. -/
theorem run_of_holds {observer : Observer} (hhears : observer.Hears)
    (h : ∀ c ∈ solveOrder l, c.Holds solver.settings snapshot) : (solver.run observer l snapshot).AtRest l snapshot := by
  -- No turn moves anything, so every turn and every verdict is about `snapshot` itself.
  have hturns := attempts_of_holds hhears h
  have hgeometry : (solver.run observer l snapshot).geometry = snapshot := by rw [run_geometry, hturns]
  have hverdict := fun c hc => Constraint.verdict_of_holds hhears (h c hc)
  have hsolutions : (solver.run observer l snapshot).solutions = (solveOrder l).map fun c =>
      (c.attempt observer solver.settings snapshot).verdict solver.settings snapshot := by
    rw [run_solutions, hturns, hgeometry, List.map_map]
    rfl
  constructor
  case geometry_eq => exact hgeometry
  case updates =>
    intro hnumeric
    rw [hsolutions, List.forall_mem_map]
    intro c hc
    rw [(hverdict c hc).2.2.2]
    exact Snapshot.changes_restrict_self fun id hid => hnumeric id (entities_subset_mentioned hc hid)
  all_goals rw [hsolutions, List.forall_mem_map]
  case satisfied => exact fun c hc => (hverdict c hc).1
  case iterations => exact fun c hc => (hverdict c hc).2.1
  case error => exact fun c hc => (hverdict c hc).2.2.1

section Satisfied
variable {observer : Observer} (h : ∀ solution ∈ (solver.run observer l snapshot).solutions, solution.satisfied = true)
include h

/-- If every solution is satisfied, every constraint holds where the pass ends, and has its residual there. -/
theorem turns_of_satisfied :
    ∀ a ∈ (attempts observer solver.settings (solveOrder l) snapshot).1,
      let final := (solver.run observer l snapshot).geometry
      a.constraint.Holds solver.settings final ∧
        a.constraint.residual final = .ok (a.verdict solver.settings final).residual := by
  intro a ha final
  have htruthful := a.verdict_truthful solver.settings final
  have hsatisfied := h _ (List.mem_map_of_mem ha)
  exact ⟨(htruthful.satisfied_iff_holds.mp hsatisfied).2, htruthful.residual (htruthful.satisfied.mp hsatisfied).1⟩

theorem holds_of_satisfied {c : Constraint} (hc : c ∈ solveOrder l) :
    c.Holds solver.settings (solver.run observer l snapshot).geometry := by
  rw [← constraints_attempts observer solver.settings (solveOrder l) snapshot] at hc
  obtain ⟨a, ha, rfl⟩ := List.mem_map.mp hc
  exact (solver.turns_of_satisfied h a ha).1

theorem residuals_of_satisfied :
    ((solver.run observer l snapshot).solutions.map (·.residual)).map .ok =
      (solveOrder l).map (·.residual (solver.run observer l snapshot).geometry) := by
  rw [run_solutions, List.map_map, List.map_map,
    ← map_constraint_attempts observer solver.settings _ (solveOrder l) snapshot]
  exact List.map_congr_left fun a ha => (solver.turns_of_satisfied h a ha).2.symm

/-- After a pass in which everything was satisfied, another one finds nothing to do, and the same residuals. -/
theorem run_again {later : Observer} (hhears : later.Hears) :
    let pass := solver.run observer l snapshot
    let again := solver.run later l pass.geometry
    again.AtRest l pass.geometry ∧
      again.solutions.map (·.constraint) = pass.solutions.map (·.constraint) ∧
      again.solutions.map (·.residual) = pass.solutions.map (·.residual) := by
  intro pass again
  have hrest : again.AtRest l pass.geometry := solver.run_of_holds hhears fun c hc => solver.holds_of_satisfied h hc
  refine ⟨hrest, ?_, ?_⟩
  · rw [run_constraints, run_constraints]
  · have hmeasured := solver.residuals_of_satisfied hrest.satisfied
    rw [hrest.geometry_eq, ← solver.residuals_of_satisfied h] at hmeasured
    exact List.map_injective_iff.mpr (fun _ _ => Except.ok.inj) hmeasured

end Satisfied

end Solver

end Drafting
