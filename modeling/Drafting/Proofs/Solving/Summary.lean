import Drafting.Admission
import Drafting.Proofs.Number.Extremum
import Drafting.Proofs.Settings
import Drafting.Proofs.Solving.Verdict

/-! What the numbers of a report tell.

The counts of a report are the counts of its solutions. Its largest residual tells a
little less: it is below the tolerance exactly if every solution without error is
satisfied or has a residual that is not a number (`Solver.run_summarized`). Such a
residual is not below the tolerance, so the constraint is not satisfied, but a
maximum passes it over. One way to get there are coordinates too large to be squared:
two lines that are one and the same are then not of equal length, and the largest
residual is zero (`Solver.not_satisfied_of_maxResidual`). -/
namespace Drafting

namespace Report

variable (constraints : List Constraint) (solutions : List Solution)

/-- The largest residual of a report is below a positive bound exactly if that of every solution without error is, or
is no number. -/
theorem maxResidual_lt_iff {bound : Float} :
    (Report.of constraints solutions).maxResidual < bound ↔
      0.0 < bound ∧ ∀ s ∈ solutions, s.error = none → s.residual.isNaN = true ∨ s.residual < bound := by
  show Number.largest _ < bound ↔ _
  rw [Number.largest_lt_iff]
  simp only [List.forall_mem_map, List.mem_filter, Option.isNone_iff_eq_none, and_imp]

/-- Those that are not satisfied are counted as unsatisfied. -/
theorem unsatisfiedCount_eq :
    (Report.of constraints solutions).unsatisfiedCount = (solutions.filter (!·.satisfied)).length := by
  show solutions.length - (solutions.filter (·.satisfied)).length = _
  rw [List.length_eq_length_filter_add (·.satisfied), Nat.add_sub_cancel_left]

end Report

namespace Solver

variable (solver : Solver) (observer : Observer) (snapshot : Snapshot)

/-- Every solution of a pass is satisfied exactly if it has no error and a residual below the tolerance. -/
theorem run_judged (l : List Constraint) :
    ∀ s ∈ (solver.run observer l snapshot).solutions,
      s.satisfied = true ↔ s.error = none ∧ s.residual < solver.settings.tolerance := by
  intro s hs
  rw [run_solutions] at hs
  obtain ⟨own, _, rfl⟩ := List.mem_map.mp hs
  exact (own.verdict_truthful solver.settings _).satisfied

/-- **The largest residual is below the tolerance exactly if every solution without error is satisfied**, or has a
residual that is not a number. The satisfied and the unsatisfied solutions are counted, and there are together as
many as active constraints. -/
theorem run_summarized (l : List Constraint) (h : solver.settings.check = .ok ()) :
    let pass := solver.run observer l snapshot
    (pass.report.maxResidual < solver.settings.tolerance ↔
      ∀ s ∈ pass.solutions, s.error = none → s.satisfied = true ∨ s.residual.isNaN = true) ∧
    pass.report.satisfiedCount = (pass.solutions.filter (·.satisfied)).length ∧
    pass.report.unsatisfiedCount = (pass.solutions.filter (!·.satisfied)).length ∧
    pass.report.satisfiedCount + pass.report.unsatisfiedCount = pass.report.constraintCount ∧
    pass.report.constraintCount = (l.filter (·.active)).length := by
  intro pass
  have hunsatisfied : pass.report.unsatisfiedCount = (pass.solutions.filter (!·.satisfied)).length :=
    Report.unsatisfiedCount_eq ..
  refine ⟨?_, rfl, hunsatisfied, ?_, ?_⟩
  · show (Report.of (solveOrder l) pass.solutions).maxResidual < _ ↔ _
    rw [Report.maxResidual_lt_iff, and_iff_right (SolverSettings.tolerance_pos h)]
    refine forall₂_congr fun s hs => forall_congr' fun herror => ?_
    rw [solver.run_judged observer snapshot l s hs, and_iff_right herror, or_comm]
  · rw [hunsatisfied]
    exact (List.length_eq_length_filter_add _).symm
  · show pass.solutions.length = _
    rw [run_solutions, List.length_map, length_attempts, (solveOrder_perm l).length_eq]

/-- A point is pulled to two places, and a line that is not there is to be horizontal. The point can be in one of the
places only, and the largest residual shows it. -/
theorem run_summarized_contested :
    let pin (number : BitVec 128) (priority : Priority) (target : Point) : Constraint :=
      { Constraint.bare number .fix [⟨⟨2⟩⟩] with priority, parameters := .ofList [(.point, .point target)] }
    let gone : Constraint := .bare 3 .horizontal [⟨⟨7⟩⟩]
    let solver : Solver := ⟨{}⟩
    let pass := solver.run .silent [pin 1 .high ⟨9.0, 9.0⟩, pin 2 .low ⟨5.0, 0.0⟩, gone] contested
    solver.settings.check = .ok () ∧ ¬ pass.report.maxResidual < solver.settings.tolerance ∧
      pass.report.satisfiedCount = 1 ∧ pass.report.satisfiedCount + pass.report.unsatisfiedCount = 3 := by
  intro pin gone solver pass
  have hcheck : solver.settings.check = .ok () := by decide +kernel
  obtain ⟨hmax, hsatisfied, _, htogether, hcount⟩ := solver.run_summarized .silent contested _ hcheck
  have hpulled : ¬ ∀ s ∈ pass.solutions, s.error = none → s.satisfied = true ∨ s.residual.isNaN = true := by
    decide +kernel
  refine ⟨hcheck, fun hless => hpulled (hmax.mp hless), hsatisfied.trans ?_, htogether.trans (hcount.trans rfl)⟩
  decide +kernel

/-- Two lines so long that their lengths are infinite. They are one and the same, and to be of equal length is
admitted for them. The difference of their lengths is not a number: the constraint does not hold, has no error, and
does not show in the largest residual. -/
theorem not_satisfied_of_maxResidual :
    let far : Point := ⟨1e200, 0.0⟩
    let lines : Snapshot := .ofList [(⟨⟨1⟩⟩, .line ⟨0.0, 0.0⟩ far), (⟨⟨2⟩⟩, .line ⟨0.0, 0.0⟩ far)]
    let alike : Constraint := .bare 1 .equalLength [⟨⟨1⟩⟩, ⟨⟨2⟩⟩]
    let solver : Solver := ⟨{}⟩
    let pass := solver.run .silent [alike] lines
    solver.settings.check = .ok () ∧ Admission.check lines alike.kind alike.entities alike.parameters = .ok () ∧
      ¬ (pass.report.maxResidual < solver.settings.tolerance ↔
        ∀ s ∈ pass.solutions, s.error = none → s.satisfied = true) := by
  decide +kernel

end Solver

end Drafting
