import Drafting.Proofs.Solving.Pass

/-! Verdicts are true of the final geometry.

What a turn contributes to its verdict is whether it failed. All the rest is
measured after the last turn: a turn without error is judged by the residual where
the pass ends, whatever the residual was where the turn ended
(`Solution.Truthful`). So a constraint that holds in its turn is reported
unsatisfied if a later one undoes it, and one that its turn does not bring to hold
is reported satisfied if a later one mends it; and what is reported satisfied does
hold (`Solver.run_truthful`). -/
namespace Drafting

namespace Constraint

/-- What keeps the residual from being measured. -/
def fault? (c : Constraint) (snapshot : Snapshot) : Option SolveError :=
  match c.residual snapshot with
  | .error e => some e
  | .ok _ => none

/-- The residual can be measured and is below the tolerance. -/
def Holds (settings : SolverSettings) (c : Constraint) (snapshot : Snapshot) : Prop :=
  ∃ r, c.residual snapshot = .ok r ∧ r < settings.tolerance

variable {settings : SolverSettings} {c : Constraint} {snapshot : Snapshot}

theorem fault?_eq_some {e : SolveError} : c.fault? snapshot = some e ↔ c.residual snapshot = .error e := by
  unfold fault?
  split <;> simp_all

theorem fault?_eq_none : c.fault? snapshot = none ↔ ∃ r, c.residual snapshot = .ok r := by
  unfold fault?
  split <;> simp_all

theorem holds_of_residual {r : Float} (h : c.residual snapshot = .ok r) :
    c.Holds settings snapshot ↔ r < settings.tolerance := by
  simp [Holds, h]

theorem not_holds_of_residual {e : SolveError} (h : c.residual snapshot = .error e) : ¬ c.Holds settings snapshot := by
  simp [Holds, h]

instance : Decidable (c.Holds settings snapshot) :=
  match h : c.residual snapshot with
  | .ok _ => decidable_of_iff _ (holds_of_residual h).symm
  | .error _ => isFalse (not_holds_of_residual h)

end Constraint

/-! ### One verdict -/

/-- What a solution has to say of a turn and of a geometry. -/
structure Solution.Truthful (settings : SolverSettings) (own : Attempt) (final : Snapshot) (solution : Solution) :
    Prop where
  constraint : solution.constraint = own.constraint.id
  /-- The turn's own error comes first. -/
  error : solution.error = own.error.or (own.constraint.fault? final)
  /-- Without an error, the residual is the one there. -/
  residual : solution.error = none → own.constraint.residual final = .ok solution.residual
  satisfied : solution.satisfied = true ↔ solution.error = none ∧ solution.residual < settings.tolerance

namespace Solution.Truthful

variable {settings : SolverSettings} {own : Attempt} {final : Snapshot} {solution : Solution}

/-- The verdict in terms of the constraint alone: where the turn did not fail, a constraint is reported
satisfied exactly if it holds. -/
theorem satisfied_iff_holds (h : solution.Truthful settings own final) :
    solution.satisfied = true ↔ own.error = none ∧ own.constraint.Holds settings final := by
  rw [h.satisfied]
  constructor
  · rintro ⟨herror, hless⟩
    have hown := h.error.symm.trans herror
    rw [Option.or_eq_none_iff] at hown
    exact ⟨hown.1, (Constraint.holds_of_residual (h.residual herror)).mpr hless⟩
  · rintro ⟨hown, r, hr, hless⟩
    have herror : solution.error = none := by
      rw [h.error, hown, Option.none_or]
      exact Constraint.fault?_eq_none.mpr ⟨r, hr⟩
    have hsame : solution.residual = r := by
      have hmeasured := (h.residual herror).symm.trans hr
      cases hmeasured
      rfl
    exact ⟨herror, hsame ▸ hless⟩

end Solution.Truthful

theorem Attempt.verdict_truthful (settings : SolverSettings) (a : Attempt) (final : Snapshot) :
    (a.verdict settings final).Truthful settings a final := by
  unfold verdict
  cases herror : a.error with
  | some e =>
    refine ⟨rfl, ?_, nofun, ?_⟩
    · simp only [herror, Option.some_or]
    · simp
  | none =>
    cases hr : a.constraint.residual final with
    | error e =>
      refine ⟨rfl, ?_, nofun, ?_⟩
      · simp only [herror, Option.none_or, Constraint.fault?_eq_some.mpr hr]
      · simp
    | ok r =>
      refine ⟨rfl, ?_, fun _ => hr, ?_⟩
      · simp only [herror, Option.none_or, Constraint.fault?_eq_none.mpr ⟨r, hr⟩]
      · simp

/-! ### Passes -/

namespace Solver

variable (solver : Solver) (observer : Observer) (snapshot : Snapshot)

/-- The turn of a constraint on what those ahead of it leave. -/
def turnAfter (ahead : List Constraint) (c : Constraint) : Attempt :=
  c.attempt observer solver.settings (attempts observer solver.settings ahead snapshot).2

@[simp] theorem turnAfter_constraint (ahead : List Constraint) (c : Constraint) :
    (solver.turnAfter observer snapshot ahead c).constraint = c :=
  Constraint.attempt_constraint ..

/-- The place of a constraint in a pass: its own turn is judged there, and the geometry of the pass is what
the constraints behind make of what the turn leaves. -/
theorem run_place {l ahead behind : List Constraint} {c : Constraint} (h : solveOrder l = ahead ++ c :: behind) :
    let own := solver.turnAfter observer snapshot ahead c
    let pass := solver.run observer l snapshot
    pass.solutions[ahead.length]? = some (own.verdict solver.settings pass.geometry) ∧
      pass.geometry = (attempts observer solver.settings behind own.geometry).2 := by
  intro own pass
  have hlength := length_attempts observer solver.settings ahead snapshot
  constructor
  · simp only [pass, run_solutions, h, attempts_append, attempts, List.getElem?_map]
    rw [List.getElem?_append_right (Nat.le_of_eq hlength), hlength, Nat.sub_self]
    rfl
  · simp only [pass, run_geometry, h, attempts_append, attempts]
    rfl

/-- **Verdicts are true of the geometry that a pass returns.** There is one solution for each constraint of
the order. Its error is that of the constraint's own turn, else what keeps the residual from being measured
in the final geometry, else none; without one the residual is the one there; and a constraint is satisfied
exactly if its turn did not fail and it holds in the end. -/
theorem run_truthful (l : List Constraint) :
    let pass := solver.run observer l snapshot
    pass.solutions.length = (solveOrder l).length ∧
      ∀ ahead c behind, solveOrder l = ahead ++ c :: behind →
        ∃ solution, pass.solutions[ahead.length]? = some solution ∧
          solution.Truthful solver.settings (solver.turnAfter observer snapshot ahead c) pass.geometry ∧
          (solution.satisfied = true ↔
            (solver.turnAfter observer snapshot ahead c).error = none ∧ c.Holds solver.settings pass.geometry) := by
  intro pass
  refine ⟨?_, fun ahead c behind h => ?_⟩
  · rw [run_solutions, List.length_map, length_attempts]
  · have htruthful := (solver.turnAfter observer snapshot ahead c).verdict_truthful solver.settings pass.geometry
    refine ⟨_, (solver.run_place observer snapshot h).1, htruthful, ?_⟩
    rw [htruthful.satisfied_iff_holds, turnAfter_constraint]

/-- A point and another beside it. -/
def contested : Snapshot := .ofList [(⟨⟨1⟩⟩, .point ⟨0.0, 0.0⟩), (⟨⟨2⟩⟩, .point ⟨1.0, 0.0⟩)]

/-- Three constraints fight over a point. The first holds in its turn and is undone. The second has one step,
which is not enough, and is mended by the last. -/
theorem run_truthful_contested :
    let pin (number : BitVec 128) (priority : Priority) (target : Point) : Constraint :=
      { Constraint.bare number .fix [⟨⟨2⟩⟩] with priority, parameters := .ofList [(.point, .point target)] }
    let far := pin 1 .high ⟨9.0, 9.0⟩
    let apart : Constraint :=
      { Constraint.bare 2 .distance [⟨⟨1⟩⟩, ⟨⟨2⟩⟩] with parameters := .ofList [(.distance, .number 5.0)] }
    let near := pin 3 .low ⟨5.0, 0.0⟩
    let solver : Solver := ⟨{ maxIterations := 1 }⟩
    let pass := solver.run .silent [near, apart, far] contested
    (far.Holds solver.settings (solver.turnAfter .silent contested [] far).geometry ∧
      ∃ undone, pass.solutions[0]? = some undone ∧ undone.satisfied = false) ∧
    ¬ apart.Holds solver.settings (solver.turnAfter .silent contested [far] apart).geometry ∧
      ∃ mended, pass.solutions[1]? = some mended ∧ mended.satisfied = true := by
  intro pin far apart near solver pass
  have horder : solveOrder [near, apart, far] = [far, apart, near] := by decide +kernel
  obtain ⟨undone, hundone, _, hfar⟩ := (solver.run_truthful .silent contested [near, apart, far]).2 [] far _ horder
  obtain ⟨mended, hmended, _, hnear⟩ := (solver.run_truthful .silent contested [near, apart, far]).2 [far] apart _ horder
  have hlost : ¬ far.Holds solver.settings pass.geometry := by decide +kernel
  have hwon : (solver.turnAfter .silent contested [far] apart).error = none ∧
      apart.Holds solver.settings pass.geometry := by decide +kernel
  refine ⟨⟨by decide +kernel, undone, hundone, ?_⟩, by decide +kernel, mended, hmended, hnear.mpr hwon⟩
  rw [Bool.eq_false_iff]
  exact fun hs => hlost (hfar.mp hs).2

end Solver

end Drafting
