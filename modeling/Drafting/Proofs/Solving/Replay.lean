import Drafting.Proofs.Entity.Twin
import Drafting.Proofs.Solving.Pass

/-! Replaying the updates of a pass.

Every solution carries the updates of its own constraint, taken around all the steps
of its turn. Merged one after the other into the snapshot of the pass they lead to
its geometry (`Solver.run_replays`), up to the sign of zeros. A turn that failed is
put back and has no updates, and one whose error shows in the final sweep only has
moved what its updates say; so the errors need no case of their own. A copy follows
the pass turn by turn (`attempts_twin`): it is a twin of what each constraint meets. -/
namespace Drafting

/-- The updates of the entities that a change is confined to tell all of it. -/
theorem Snapshot.Confined.twin_merge {ids : List EntityId} {copy s t : Snapshot} (h : Confined ids s t)
    (hcopy : copy.Twin s) : (copy.merge (Snapshot.changes (s.restrict ids) t)).Twin t := by
  refine Snapshot.twin_merge hcopy h.keys fun {id e e'} he he' => ?_
  rw [get?_changes, Table.get?_restrict]
  by_cases hid : id ∈ ids
  · have hkind : e.kind = e'.kind := by simpa [kind?, he, he'] using (h.kind?_eq id).symm
    rw [if_pos hid, he, Option.bind_some, he', Option.bind_some]
    exact .inr ⟨hkind, rfl⟩
  · have hsame : e = e' := Option.some.inj (he.symm.trans ((h.frame id hid).symm.trans he'))
    rw [if_neg hid]
    exact .inl ⟨hsame, rfl⟩

section Turns
variable (observer : Observer) (settings : SolverSettings) {copy snapshot : Snapshot}

/-- A turn's updates take a copy of what the turn met to a copy of what it left. -/
theorem Constraint.attempt_twin (c : Constraint) (h : copy.Twin snapshot) :
    (copy.merge (c.attempt observer settings snapshot).updates).Twin
      (c.attempt observer settings snapshot).geometry := by
  rw [attempt_eq]
  split
  · rwa [copy.merge_of_isEmpty rfl]
  · rwa [copy.merge_of_isEmpty rfl]
  · exact (Course.of_confined settings c snapshot).twin_merge h

theorem attempts_twin (l : List Constraint) (h : copy.Twin snapshot) :
    (((attempts observer settings l snapshot).1.map (·.updates)).foldl Snapshot.merge copy).Twin
      (attempts observer settings l snapshot).2 := by
  induction l generalizing copy snapshot with
  | nil => exact h
  | cons c rest ih => exact ih (c.attempt_twin observer settings h)

end Turns

/-- **The updates of a pass replay to its geometry.** Merged in the order of the solutions, whether
these carry an error or not, they take the snapshot to a twin of what the pass ends with: the same
entities, each of the same kind, and in every field the same value or another zero. -/
theorem Solver.run_replays (solver : Solver) (observer : Observer) (l : List Constraint) (snapshot : Snapshot) :
    let pass := solver.run observer l snapshot
    ((pass.solutions.map (·.updates)).foldl Snapshot.merge snapshot).Twin pass.geometry := by
  intro pass
  have hupdates : pass.solutions.map (·.updates) =
      (attempts observer solver.settings (solveOrder l) snapshot).1.map (·.updates) := by
    simp only [pass, run_solutions, List.map_map, Function.comp_def, Attempt.verdict_updates]
  rw [hupdates]
  exact attempts_twin observer solver.settings (solveOrder l) (.refl snapshot)

/-- A point is mirrored across a line, which then collapses because it is asked to be vertical. The mirror image is
reported with an error, but its updates stand, and they are replayed with the others. -/
theorem Solver.run_replays_collapsed :
    let level : Snapshot :=
      .ofList [(⟨⟨1⟩⟩, .line ⟨0.0, 0.0⟩ ⟨10.0, 0.0⟩), (⟨⟨2⟩⟩, .point ⟨2.0, 3.0⟩), (⟨⟨3⟩⟩, .point ⟨5.0, -1.0⟩)]
    let mirrored : Constraint := .bare 1 .symmetric [⟨⟨2⟩⟩, ⟨⟨3⟩⟩, ⟨⟨1⟩⟩]
    let upright : Constraint := .bare 2 .vertical [⟨⟨1⟩⟩]
    let pass := (⟨{}⟩ : Solver).run .silent [mirrored, upright] level
    pass.solutions.map (fun solution => (solution.error.isSome, solution.updates)) =
        [(true, .ofList [(⟨⟨3⟩⟩, .point (some ⟨2.0, -3.0⟩))]),
          (false, .ofList [(⟨⟨1⟩⟩, .line none (some ⟨0.0, 0.0⟩))])] ∧
      pass.geometry.get? ⟨⟨3⟩⟩ = some (.point ⟨2.0, -3.0⟩) ∧
      ((pass.solutions.map (·.updates)).foldl Snapshot.merge level).Twin pass.geometry :=
  ⟨by decide +kernel, by decide +kernel, run_replays ⟨{}⟩ .silent _ _⟩

end Drafting
