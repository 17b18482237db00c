import Drafting.Proofs.Solving.Blame
import Drafting.Proofs.Solving.Undermined

/-! Errors that are there from the start.

An entity that is missing or of the wrong kind, a parameter that is not given, and a
list that is too short are *structural* errors: no coordinate has a part in them. A
pass changes no kind, so the snapshot that it begins with decides about them for
every constraint, whatever the other constraints do. A constraint with a structural
error fails before its first step, with the error that its residual has at the
start; and one without it meets the same luck in its turn and in the final sweep,
where nothing but a line without length can go wrong (`Solver.run_structural`). -/
namespace Drafting

/-- The observer takes note of failures, and interrupts no constraint that fails. -/
def Observer.HearsFailures (observer : Observer) : Prop := ∀ id kind e, observer (.failed id kind e) = none

theorem Observer.hearsFailures_silent : Observer.silent.HearsFailures := fun _ _ _ => rfl

/-- What the snapshot at the start of a pass tells of a constraint's solution, for the constraint's own turn. -/
structure Solution.Foretold (c : Constraint) (start : Snapshot) (own : Attempt) (solution : Solution) : Prop where
  /-- A structural error is there at the start, or it never comes. -/
  structural_iff : ∀ e, e.isStructural = true → (solution.error = some e ↔ c.residual start = .error e)
  /-- And then there is nothing else to tell. -/
  refused : ∀ e, e.isStructural = true → c.residual start = .error e →
    solution = ⟨c.id, false, .empty, 0, 1.0 / 0.0, some e⟩
  /-- An error that comes after a step, or after the turn, is about a line without length. -/
  late : own.error = none ∨ solution.iterations ≠ 0 → ∀ e, solution.error = some e → e.blamesLength = true

/-! ### Turns -/

section Turns
variable {observer : Observer} {c : Constraint} {snapshot : Snapshot} {e : SolveError}

/-- A turn that cannot even measure its constraint fails before the first step. -/
theorem Constraint.attempt_of_unmeasured (settings : SolverSettings) (hhears : observer.HearsFailures)
    (h : c.residual snapshot = .error e) :
    let own := c.attempt observer settings snapshot
    own.error = some e ∧ own.iterations = 0 ∧ own.updates = .empty := by
  have hcourse : Course.of settings c snapshot = ⟨[], .unmeasured e, snapshot⟩ := by simp only [Course.of, h]
  have hheard : observer.hear [.failed c.id c.kind e] = ([.failed c.id c.kind e], none) := by
    simp only [Observer.hear, hhears c.id c.kind e]
  rw [attempt_eq, hcourse]
  simp only [Course.events, hheard]
  exact ⟨rfl, rfl, rfl⟩

/-- A turn that starts from a relation has no structural error, and no step without telling of a length. -/
theorem Constraint.attempt_of_hasRelation (observer : Observer) (settings : SolverSettings) (h : c.HasRelation snapshot)
    (he : (c.attempt observer settings snapshot).error = some e) :
    e.isStructural = false ∧ ((c.attempt observer settings snapshot).iterations ≠ 0 → e.blamesLength = true) := by
  rcases c.attempt_error observer settings snapshot with ⟨⟨_, _, _, hinternal⟩, hzero⟩ | hended
  · rw [he, Option.some.injEq] at hinternal
    subst hinternal
    exact ⟨rfl, fun hsteps => absurd hzero hsteps⟩
  · have hblames : e.blamesLength = true := Course.of_blamesLength h (hended.symm.trans he)
    exact ⟨SolveError.not_structural_of_blamesLength hblames, fun _ => hblames⟩

end Turns

/-! ### Verdicts -/

section Verdicts
variable {observer : Observer} {settings : SolverSettings} {c : Constraint} {start now final : Snapshot}

/-- A constraint without a relation is refused, and the sweep has nothing to add. -/
theorem Constraint.foretold_of_missed (hhears : observer.HearsFailures) {missed : SolveError}
    (hstart : c.residual start = .error missed) (hnow : c.residual now = .error missed) :
    let own := c.attempt observer settings now
    (own.verdict settings final).Foretold c start own := by
  intro own
  obtain ⟨herror, hiterations, hupdates⟩ := attempt_of_unmeasured settings hhears hnow
  have hverdict : own.verdict settings final = ⟨c.id, false, .empty, 0, 1.0 / 0.0, some missed⟩ := by
    rw [Attempt.verdict_of_error herror, attempt_constraint, hiterations, hupdates]
  rw [hverdict]
  constructor
  case structural_iff =>
    intro e _
    rw [hstart, Option.some.injEq, Except.error.injEq]
  case refused =>
    intro e _ he
    rw [Except.error.inj (hstart.symm.trans he)]
  case late =>
    rintro (hnone | hsteps)
    · rw [herror] at hnone
      cases hnone
    · exact absurd rfl hsteps

/-- A constraint with a relation meets no structural error, neither in its turn nor in the sweep. -/
theorem Constraint.foretold_of_hasRelation (hstart : c.HasRelation start) (hnow : c.HasRelation now)
    (hfinal : c.HasRelation final) :
    let own := c.attempt observer settings now
    (own.verdict settings final).Foretold c start own := by
  intro own
  have herrors : ∀ e, (own.verdict settings final).error = some e →
      e.isStructural = false ∧ (own.error = none ∨ own.iterations ≠ 0 → e.blamesLength = true) := by
    intro e he
    rw [(own.verdict_truthful settings final).error, attempt_constraint, Option.or_eq_some_iff] at he
    rcases he with hturn | ⟨hnone, hsweep⟩
    · obtain ⟨hstructural, hsteps⟩ := attempt_of_hasRelation observer settings hnow hturn
      refine ⟨hstructural, fun h => hsteps (h.resolve_left ?_)⟩
      rw [hturn]
      exact nofun
    · have hblames := blamesLength_residual hfinal (fault?_eq_some.mp hsweep)
      exact ⟨SolveError.not_structural_of_blamesLength hblames, fun _ => hblames⟩
  have hmeasured : ∀ e, e.isStructural = true → c.residual start ≠ .error e := by
    intro e he hr
    rw [SolveError.not_structural_of_blamesLength (blamesLength_residual hstart hr)] at he
    cases he
  constructor
  case structural_iff =>
    intro e he
    refine iff_of_false (fun herror => ?_) (hmeasured e he)
    rw [(herrors e herror).1] at he
    cases he
  case refused => exact fun e he hr => absurd hr (hmeasured e he)
  case late =>
    intro h e he
    rw [Attempt.verdict_iterations] at h
    exact (herrors e he).2 h

end Verdicts

/-! ### Passes -/

namespace Solver

variable (solver : Solver) {observer : Observer} (snapshot : Snapshot)

/-- **Structural errors are decided before the pass starts.** There is a solution for each active constraint, whether
the constraint is sound or not. It has a structural error exactly if the residual of the constraint has that very error
in the snapshot that the pass begins with; then no step was made, there are no updates, and nothing in the solution
depends on the other constraints, their order or the settings. So an error that comes after a step, or in the final
sweep only, is about a line without length. -/
theorem run_structural (hhears : observer.HearsFailures) (l : List Constraint) :
    let pass := solver.run observer l snapshot
    (solveOrder l).Perm (l.filter (·.active)) ∧
      ∀ ahead c behind, solveOrder l = ahead ++ c :: behind →
        ∃ solution, pass.solutions[ahead.length]? = some solution ∧
          solution.Foretold c snapshot (solver.turnAfter observer snapshot ahead c) := by
  intro pass
  refine ⟨solveOrder_perm l, fun ahead c behind horder => ⟨_, (solver.run_place observer snapshot horder).1, ?_⟩⟩
  -- No turn changes a kind, neither those before this one nor those behind.
  have hnow := (attempts_confined observer solver.settings ahead snapshot).kind?_eq
  have hfinal := (solver.run_confined observer l snapshot).kind?_eq
  rcases c.hasRelation_or_missed snapshot with hrelation | ⟨missed, _, hmissed⟩
  · exact Constraint.foretold_of_hasRelation hrelation ((Constraint.hasRelation_congr hnow).mpr hrelation)
      ((Constraint.hasRelation_congr hfinal).mpr hrelation)
  · exact Constraint.foretold_of_missed hhears (hmissed snapshot fun _ => rfl) (hmissed _ hnow)

/-- A line cannot be a circle, whatever was done to it before. That it has lost its length shows in the sweep. -/
theorem run_structural_level :
    let mirrored : Constraint := .bare 1 .symmetric [⟨⟨2⟩⟩, ⟨⟨3⟩⟩, ⟨⟨1⟩⟩]
    let upright : Constraint := .bare 2 .vertical [⟨⟨1⟩⟩]
    let mistaken : Constraint := .bare 3 .concentric [⟨⟨1⟩⟩, ⟨⟨2⟩⟩]
    let pass := (⟨{}⟩ : Solver).run .silent [mirrored, upright, mistaken] level
    let misfit : SolveError := .wrongEntityType ⟨⟨1⟩⟩ "circle or arc" .line
    pass.solutions[2]? = some ⟨mistaken.id, false, .empty, 0, 1.0 / 0.0, some misfit⟩ ∧
      ∃ solution e, pass.solutions[0]? = some solution ∧ solution.iterations ≠ 0 ∧ solution.error = some e ∧
        e.blamesLength = true := by
  intro mirrored upright mistaken pass misfit
  have hforetold := (run_structural ⟨{}⟩ level Observer.hearsFailures_silent [mirrored, upright, mistaken]).2
  have hlast : solveOrder [mirrored, upright, mistaken] = [mirrored, upright] ++ mistaken :: [] := by decide +kernel
  have hfirst : solveOrder [mirrored, upright, mistaken] = [] ++ mirrored :: [upright, mistaken] := by decide +kernel
  obtain ⟨refused, hrefused, htold⟩ := hforetold _ _ _ hlast
  obtain ⟨solution, hsolution, htold'⟩ := hforetold _ _ _ hfirst
  have hstart : mistaken.residual level = .error misfit := by decide +kernel
  have hshown : (pass.solutions[0]?.bind (·.error)).isSome = true ∧
      pass.solutions[0]?.map (·.iterations) = some 1 := by decide +kernel
  have hplace : pass.solutions[0]? = some solution := hsolution
  rw [hplace] at hshown
  obtain ⟨e, he⟩ := Option.isSome_iff_exists.mp hshown.1
  have hone : solution.iterations = 1 := Option.some.inj hshown.2
  have hsteps : solution.iterations ≠ 0 := by
    rw [hone]
    decide
  exact ⟨hrefused.trans (congrArg some (htold.refused _ rfl hstart)), solution, e, hplace, hsteps, he,
    htold'.late (.inr hsteps) e he⟩

end Solver

end Drafting
