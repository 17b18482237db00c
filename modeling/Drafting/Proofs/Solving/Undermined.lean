import Drafting.Proofs.Solving.Verdict
import Drafting.Session.Basic

/-! Errors that show late.

A solution has its error from one of two moments. Its turn failed: then everything
was put back, and there are no updates. Or its turn ended well, in a geometry where
the constraint can be measured (`Course.of_measured`), and only the final sweep
cannot measure it any more: then a constraint behind has changed an entity that
both refer to, and the updates of the turn stand (`Solver.run_error`). So an error
does not mean that the constraint moved nothing (`Session.not_unmoved_of_error`). -/
namespace Drafting

/-! ### Turns that end well -/

section Turns
variable {observer : Observer} {settings : SolverSettings} {c : Constraint} {snapshot : Snapshot}

/-- Every geometry from which a course goes on has been measured; it loses that only by failing. -/
theorem Course.pursue_measured (budget : Nat) {now : Visit} (earlier : List Visit) (hnow : c.fault? now.geometry = none)
    (h : (pursue settings c budget now earlier).ending.error? = none) :
    c.fault? (pursue settings c budget now earlier).geometry = none := by
  induction budget generalizing now earlier with
  | zero => exact hnow
  | succ budget ih =>
    rw [pursue] at h ⊢
    by_cases hreached : settings.tolerance ≤ now.residual
    · rw [if_pos hreached] at h ⊢
      cases hstep : c.step settings now.geometry with
      | error e => exact hnow
      | ok geometry =>
        simp only [hstep] at h ⊢
        cases hresidual : c.residual geometry with
        | error e =>
          rw [hresidual] at h
          cases h
        | ok residual =>
          simp only [hresidual] at h ⊢
          have hnext : c.fault? geometry = none := Constraint.fault?_eq_none.mpr ⟨_, hresidual⟩
          by_cases hstalled : now.residual ≤ residual
          · rw [if_pos hstalled]
            exact hnext
          · rw [if_neg hstalled] at h ⊢
            exact ih _ hnext h
    · rw [if_neg hreached]
      exact hnow

theorem Course.of_measured (h : (of settings c snapshot).ending.error? = none) :
    c.fault? (of settings c snapshot).geometry = none := by
  unfold of at h ⊢
  split at h
  · cases h
  · rename_i residual hresidual
    exact pursue_measured _ _ (Constraint.fault?_eq_none.mpr ⟨residual, hresidual⟩) h

/-- A turn without error leaves a geometry in which its constraint can be measured. -/
theorem Constraint.attempt_measured (h : (c.attempt observer settings snapshot).error = none) :
    c.fault? (c.attempt observer settings snapshot).geometry = none := by
  rw [attempt_eq] at h ⊢
  split at h
  · cases h
  · cases h
  · rename_i hending
    exact Course.of_measured hending

theorem Constraint.fault?_congr {other : Snapshot} (h : snapshot.AgreeOn c.entities other) :
    c.fault? snapshot = c.fault? other := by
  rw [fault?, fault?, residual_congr h]

/-- What becomes impossible to measure has had an entity changed. -/
theorem Constraint.exists_changed_of_fault {other : Snapshot} (h : c.fault? snapshot ≠ c.fault? other) :
    ∃ id ∈ c.entities, other.get? id ≠ snapshot.get? id := by
  by_contra hnone
  push Not at hnone
  exact h (fault?_congr fun id hid => (hnone id hid).symm)

end Turns

/-! ### Solutions with an error -/

namespace Solver

variable (solver : Solver) (observer : Observer) (snapshot : Snapshot)

/-- **Where the error of a solution comes from.** Either the turn failed, left what it had found, and has no
updates. Or the turn ended well and its updates stand; but a constraint behind shares an entity with this one
that is not any more what the turn left, and the error is what the final sweep met there. -/
theorem run_error {l ahead behind : List Constraint} {c : Constraint} (horder : solveOrder l = ahead ++ c :: behind)
    {solution : Solution} (hsolution : (solver.run observer l snapshot).solutions[ahead.length]? = some solution)
    (herror : solution.error.isSome = true) :
    let own := solver.turnAfter observer snapshot ahead c
    let final := (solver.run observer l snapshot).geometry
    (own.error = solution.error ∧ solution.updates = .empty ∧
        own.geometry = (attempts observer solver.settings ahead snapshot).2) ∨
      (own.error = none ∧ solution.updates = own.updates ∧ solution.error = c.fault? final ∧
        ∃ d ∈ behind, ∃ id ∈ c.entities, id ∈ d.entities ∧ final.get? id ≠ own.geometry.get? id) := by
  intro own final
  obtain ⟨hplace, hfinal⟩ := solver.run_place observer snapshot horder
  have hverdict : own.verdict solver.settings final = solution := Option.some.inj (hplace.symm.trans hsolution)
  have herrors := (own.verdict_truthful solver.settings final).error
  rw [hverdict, turnAfter_constraint] at herrors
  have hupdates : solution.updates = own.updates := by rw [← hverdict, Attempt.verdict_updates]
  cases hown : own.error with
  | some e =>
    obtain ⟨hback, hnothing⟩ : own.geometry = _ ∧ own.updates = .empty :=
      Constraint.attempt_of_error (Option.isSome_of_eq_some hown)
    rw [hown, Option.some_or] at herrors
    exact .inl ⟨herrors.symm, hupdates.trans hnothing, hback⟩
  | none =>
    rw [hown, Option.none_or] at herrors
    have hmeasured : c.fault? own.geometry = none := Constraint.attempt_measured hown
    have hlost : c.fault? own.geometry ≠ c.fault? final := by
      rw [hmeasured, ← herrors]
      exact fun h => by simp [← h] at herror
    obtain ⟨id, hid, hchanged⟩ := Constraint.exists_changed_of_fault hlost
    -- What no constraint behind mentions is still what the turn left.
    have hmentioned : id ∈ behind.flatMap (·.entities) := by
      by_contra hfree
      refine hchanged ?_
      rw [show final = _ from hfinal]
      exact (attempts_confined observer solver.settings behind own.geometry).frame id hfree
    obtain ⟨d, hd, hidd⟩ := List.mem_flatMap.mp hmentioned
    exact .inr ⟨rfl, hupdates, herrors, d, hd, id, hid, hidd, hchanged⟩

/-- A level line between two points. -/
def level : Snapshot :=
  .ofList [(⟨⟨1⟩⟩, .line ⟨0.0, 0.0⟩ ⟨10.0, 0.0⟩), (⟨⟨2⟩⟩, .point ⟨2.0, 3.0⟩), (⟨⟨3⟩⟩, .point ⟨5.0, -1.0⟩)]

/-- A point is mirrored across the line, which then collapses because it is asked to be vertical. -/
theorem run_error_level :
    let mirrored : Constraint := .bare 1 .symmetric [⟨⟨2⟩⟩, ⟨⟨3⟩⟩, ⟨⟨1⟩⟩]
    let upright : Constraint := .bare 2 .vertical [⟨⟨1⟩⟩]
    let pass := (⟨{}⟩ : Solver).run .silent [mirrored, upright] level
    ∃ solution, pass.solutions[0]? = some solution ∧ solution.error.isSome = true ∧
      solution.error = mirrored.fault? pass.geometry ∧ ∃ id ∈ mirrored.entities, id ∈ upright.entities := by
  intro mirrored upright pass
  have horder : solveOrder [mirrored, upright] = [] ++ mirrored :: [upright] := by decide +kernel
  have hfirst : (pass.solutions[0]?.bind (·.error)).isSome = true := by decide +kernel
  obtain ⟨solution, hsolution⟩ := Option.isSome_iff_exists.mp (Option.isSome_of_isSome_bind hfirst)
  have herror : solution.error.isSome = true := by simpa [hsolution] using hfirst
  have hown : ((⟨{}⟩ : Solver).turnAfter .silent level [] mirrored).error = none := by decide +kernel
  refine ⟨solution, hsolution, herror, ?_⟩
  rcases run_error ⟨{}⟩ .silent level horder hsolution herror with ⟨hfailed, _⟩ | ⟨_, _, hfault, d, hd, id, hid, hidd, _⟩
  · rw [← hfailed, hown] at herror
    cases herror
  · rw [List.mem_singleton.mp hd] at hidd
    exact ⟨hfault, id, hid, hidd⟩

end Solver

/-- A constraint can have moved something and still be reported with an error: both requests are accepted, the
first moves a point across the line, the second leaves the line without length, and the updates stand. -/
theorem Session.not_unmoved_of_error :
    let start : Session := { solver := ⟨{}⟩, suggestions := {}, series := default }
    let mirrored := (start.replaceGeometry Solver.level).session.create default
      { kind := .symmetric, entities := [⟨⟨2⟩⟩, ⟨⟨3⟩⟩, ⟨⟨1⟩⟩] }
    let upright := mirrored.session.create default { kind := .vertical, entities := [⟨⟨1⟩⟩] }
    let solutions := (upright.session.solve .silent default).answer
    upright.session.constraints.length = 2 ∧
      ∃ solution ∈ solutions,
        solution.error = some (.degenerateGeometry ⟨⟨1⟩⟩ "symmetry axis has zero length") ∧
          solution.updates = .ofList [(⟨⟨3⟩⟩, .point (some ⟨2.0, -3.0⟩))] := by
  decide +kernel

end Drafting
