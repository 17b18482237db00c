import Drafting.Document.Solution
import Drafting.Proofs.Document.Geometry
import Drafting.Proofs.Solving.Pass

/-! Reading solutions.

Everything in a solution is read as it was written, the updates if their numbers are
finite, but for the residual: an infinite one is written as `null`, and no residual is
read from that. The solutions of a pass with an error have an infinite residual,
whichever way the error came about, so none of them can be read again
(`Solver.run_rereads`). -/
namespace Drafting

open Json

/-- An error is read as it was written. -/
theorem rereads_solveError (e : SolveError) : Rereads e := by
  -- the name of the choice is kept apart from the branches: to compare two literals by computing is slow
  cases e with
  | entityNotFound id =>
    have hfields := fields?_record [("id", some (encode id))] (by simp)
    have hid := required_encode (rereads_entityId id)
    show decode? (Value.tagged "EntityNotFound" (.record _)) = _
    generalize hname : "EntityNotFound" = name
    simp only [decode?, choice?_tagged, Option.bind_eq_bind, Option.bind_some]
    split <;> simp_all
  | wrongEntityType id expected actual =>
    have hfields := fields?_record [("id", some (encode id)), ("expected", some (encode expected)),
      ("actual", some (encode actual))] (by simp)
    have hid := required_encode (rereads_entityId id)
    have hexpected := required_encode (rereads_string expected)
    have hactual := required_encode (rereads_entityKind actual)
    show decode? (Value.tagged "WrongEntityType" (.record _)) = _
    generalize hname : "WrongEntityType" = name
    simp only [decode?, choice?_tagged, Option.bind_eq_bind, Option.bind_some]
    split <;> simp_all
  | degenerateGeometry id reason =>
    have hfields := fields?_record [("id", some (encode id)), ("reason", some (encode reason))] (by simp)
    have hid := required_encode (rereads_entityId id)
    have hreason := required_encode (rereads_string reason)
    show decode? (Value.tagged "DegenerateGeometry" (.record _)) = _
    generalize hname : "DegenerateGeometry" = name
    simp only [decode?, choice?_tagged, Option.bind_eq_bind, Option.bind_some]
    split <;> simp_all
  | missingParameter kind key =>
    have hfields := fields?_record [("constraint_type", some (encode kind)), ("key", some (encode key))]
      (by simp)
    have hkind := required_encode (rereads_constraintKind kind)
    have hkey := required_encode (rereads_parameterKey key)
    show decode? (Value.tagged "MissingParameter" (.record _)) = _
    generalize hname : "MissingParameter" = name
    simp only [decode?, choice?_tagged, Option.bind_eq_bind, Option.bind_some]
    split <;> simp_all
  | malformed detail => rfl
  | internal detail => rfl

/-- A solution is read as it was written, or not at all. -/
theorem decode?_encode_solution {s : Solution} (h : ∀ u ∈ s.updates.values, u.IsFinite) :
    decode? (encode s) = if s.residual.isFinite then some s else none := by
  have hfields : (encode s).fields? ["constraint_id", "satisfied", "entity_updates", "iterations", "residual", "error"] =
      some [some (encode s.constraint), some (encode s.satisfied), some (encode s.updates),
        some (encode s.iterations), some (encode s.residual), s.error.map encode] :=
    fields?_record [("constraint_id", some (encode s.constraint)), ("satisfied", some (encode s.satisfied)),
      ("entity_updates", some (encode s.updates)), ("iterations", some (encode s.iterations)),
      ("residual", some (encode s.residual)), ("error", s.error.map encode)] (by simp)
  have hid := required_encode (rereads_constraintId s.constraint)
  have hsatisfied := required_encode (rereads_bool s.satisfied)
  have hupdates : required (some (encode s.updates)) = some s.updates :=
    required_encode (rereads_byEntity fun u hu => rereads_update (h u hu))
  have hiterations := required_encode (rereads_uint32 s.iterations)
  have hresidual : required (some (encode s.residual)) = if s.residual.isFinite then some s.residual else none :=
    decode?_encode_float _
  have herror : omittable (s.error.map encode) = some s.error := omittable_encode rfl fun e _ => rereads_solveError e
  show ((encode s).fields? _).bind _ = _
  rw [hfields]
  simp only [Option.bind_some, Option.bind_eq_bind, hid, hsatisfied, hupdates, hiterations, hresidual, herror]
  split <;> rfl

/-- A solution with an error has an infinite residual, whether its turn failed or the final sweep. -/
theorem Attempt.residual_of_error {settings : SolverSettings} {a : Attempt} {final : Snapshot}
    (h : (a.verdict settings final).error ≠ none) : (a.verdict settings final).residual = 1.0 / 0.0 := by
  unfold verdict at h ⊢
  split
  · rfl
  · simp only [*] at h
    split at h
    · simp only [*]
    · exact absurd rfl h

namespace Solver

/-- **A solution of a pass is read again exactly if it has no error and a finite residual.** Its updates
are taken to be finite. A solution with an error is written, but is never read. -/
theorem run_rereads (solver : Solver) (observer : Observer) (l : List Constraint) (snapshot : Snapshot)
    {solution : Solution} (h : solution ∈ (solver.run observer l snapshot).solutions)
    (hfinite : ∀ u ∈ solution.updates.values, u.IsFinite) :
    decode? (encode solution) =
      if solution.error = none ∧ solution.residual.isFinite = true then some solution else none := by
  rw [run_solutions] at h
  obtain ⟨a, _, rfl⟩ := List.mem_map.mp h
  rw [decode?_encode_solution hfinite]
  by_cases herror : (a.verdict solver.settings (solver.run observer l snapshot).geometry).error = none
  · simp only [herror, true_and]
  · have hinfinite : (1.0 / 0.0 : Float).isFinite = false := by decide +kernel
    simp only [Attempt.residual_of_error herror, herror, hinfinite, false_and, if_false, Bool.false_eq_true]

/-- The solution of a slanted line that is made horizontal. -/
theorem run_rereads_horizontal :
    let pass := run ⟨{}⟩ .silent [.bare 1 .horizontal [⟨⟨1⟩⟩]] (.ofList [(⟨⟨1⟩⟩, .line ⟨0.0, 0.0⟩ ⟨2.0, 1.0⟩)])
    let solution : Solution := ⟨⟨⟨1⟩⟩, true, .ofList [(⟨⟨1⟩⟩, .line none (some ⟨2.0, 0.0⟩))], 1, 0.0, none⟩
    solution ∈ pass.solutions ∧ decode? (encode solution) = some solution := by
  intro pass solution
  have hmem : solution ∈ pass.solutions := by decide +kernel
  refine ⟨hmem, (run_rereads _ _ _ _ hmem (by decide +kernel)).trans (if_pos ?_)⟩
  exact ⟨rfl, by decide +kernel⟩

/-- A line has no length, so nothing can be parallel to it. The solution that says so is not read again. -/
theorem not_rereads_of_error :
    let pass := run ⟨{}⟩ .silent [.bare 1 .parallel [⟨⟨1⟩⟩, ⟨⟨2⟩⟩]]
      (.ofList [(⟨⟨1⟩⟩, .line ⟨0.0, 0.0⟩ ⟨0.0, 0.0⟩), (⟨⟨2⟩⟩, .line ⟨0.0, 0.0⟩ ⟨2.0, 1.0⟩)])
    let solution : Solution :=
      ⟨⟨⟨1⟩⟩, false, .empty, 0, 1.0 / 0.0, some (.degenerateGeometry ⟨⟨1⟩⟩ "line has zero length")⟩
    solution ∈ pass.solutions ∧ decode? (encode solution) = (none : Option Solution) := by
  intro pass solution
  refine ⟨by decide +kernel, (decode?_encode_solution (by decide)).trans (if_neg ?_)⟩
  decide +kernel

end Solver

end Drafting
