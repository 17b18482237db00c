import Drafting.Proofs.Solving.Pass

/-! A failed turn leaves no trace.

The steps of an attempt may write any number of times before one of them fails.
The geometry that the next constraint finds is nevertheless the one that this
constraint found, so the rest of the pass runs as if the constraint were not
there (`Solver.run_of_failed`). Only its own solution tells of it. -/
namespace Drafting

namespace Solver

variable (solver : Solver) (observer : Observer) (snapshot : Snapshot)

/-- The constraints before one that stands between two parts of a list: their turns, and what they leave. -/
def prior (c : Constraint) (pre post : List Constraint) : List Attempt × Snapshot :=
  attempts observer solver.settings (aheadOf c pre post) snapshot

/-- The turn of that constraint. -/
def turn (c : Constraint) (pre post : List Constraint) : Attempt :=
  c.attempt observer solver.settings (solver.prior observer snapshot c pre post).2

@[simp] theorem turn_constraint (c : Constraint) (pre post : List Constraint) :
    (solver.turn observer snapshot c pre post).constraint = c :=
  Constraint.attempt_constraint ..

/-- A pass as the turns before the one of a constraint, its own, and those after it. -/
theorem attempts_with {c : Constraint} (h : c.active = true) (pre post : List Constraint) :
    attempts observer solver.settings (solveOrder (pre ++ c :: post)) snapshot =
      let after := attempts observer solver.settings (behindOf c pre post)
        (solver.turn observer snapshot c pre post).geometry
      ((solver.prior observer snapshot c pre post).1 ++ solver.turn observer snapshot c pre post :: after.1, after.2) := by
  rw [solveOrder_append_cons h, attempts_append]
  rfl

theorem attempts_without (c : Constraint) (pre post : List Constraint) :
    attempts observer solver.settings (solveOrder (pre ++ post)) snapshot =
      let after := attempts observer solver.settings (behindOf c pre post) (solver.prior observer snapshot c pre post).2
      ((solver.prior observer snapshot c pre post).1 ++ after.1, after.2) := by
  rw [solveOrder_append c, attempts_append]
  rfl

/-- **A turn that fails leaves no trace**: the geometry is back to what the turn began with, and the pass
is the one over the list without the constraint, with the constraint's own solution put in. -/
theorem run_of_failed {c : Constraint} (pre post : List Constraint) (hactive : c.active = true)
    (hfailed : (solver.turn observer snapshot c pre post).error.isSome = true) :
    let prior := solver.prior observer snapshot c pre post
    let turn := solver.turn observer snapshot c pre post
    turn.geometry = prior.2 ∧
    (∃ rest, (attempts observer solver.settings (solveOrder (pre ++ c :: post)) snapshot).1 = prior.1 ++ turn :: rest ∧
      (attempts observer solver.settings (solveOrder (pre ++ post)) snapshot).1 = prior.1 ++ rest) ∧
    (solver.run observer (pre ++ c :: post) snapshot).geometry =
      (solver.run observer (pre ++ post) snapshot).geometry ∧
    ∃ ahead behind : List (Constraint × Solution),
      solver.results observer (pre ++ c :: post) snapshot =
        ahead ++ (c, ⟨c.id, false, .empty, turn.iterations, 1.0 / 0.0, turn.error⟩) :: behind ∧
      solver.results observer (pre ++ post) snapshot = ahead ++ behind := by
  intro prior turn
  obtain ⟨hback, hupdates⟩ : turn.geometry = prior.2 ∧ turn.updates = .empty := Constraint.attempt_of_error hfailed
  obtain ⟨e, he⟩ := Option.isSome_iff_exists.mp hfailed
  let after := attempts observer solver.settings (behindOf c pre post) prior.2
  have hwith : attempts observer solver.settings (solveOrder (pre ++ c :: post)) snapshot =
      (prior.1 ++ turn :: after.1, after.2) := by
    rw [attempts_with solver observer snapshot hactive, hback]
  have hwithout : attempts observer solver.settings (solveOrder (pre ++ post)) snapshot =
      (prior.1 ++ after.1, after.2) := solver.attempts_without observer snapshot c pre post
  refine ⟨hback, ⟨after.1, congrArg Prod.fst hwith, congrArg Prod.fst hwithout⟩, ?_,
    judgements solver.settings after.2 prior.1, judgements solver.settings after.2 after.1, ?_, ?_⟩
  · rw [run_geometry, run_geometry, hwith, hwithout]
  · have hown : turn.verdict solver.settings after.2 =
        ⟨c.id, false, .empty, turn.iterations, 1.0 / 0.0, turn.error⟩ := by
      rw [Attempt.verdict_of_error he, hupdates, turn_constraint, he]
    rw [results_eq, run_geometry, hwith, judgements, List.map_append, List.map_cons, hown, turn_constraint]
    rfl
  · rw [results_eq, run_geometry, hwithout, judgements, List.map_append]
    rfl

/-- A slanted line, and a circle so far off that the line collapses when it is moved there. -/
def collapsing : Snapshot :=
  .ofList [(⟨⟨1⟩⟩, .line ⟨0.0, 0.0⟩ ⟨1.0, 1.0⟩), (⟨⟨2⟩⟩, .circle ⟨-1e18, 1e18⟩ 1.0)]

/-- One step is made before the turn fails, and it is undone. -/
theorem run_of_failed_collapsing :
    let tangent : Constraint := .bare 1 .tangent [⟨⟨2⟩⟩, ⟨⟨1⟩⟩]
    let horizontal : Constraint := .bare 2 .horizontal [⟨⟨1⟩⟩]
    let solver : Solver := ⟨{}⟩
    let turn := solver.turn .silent collapsing tangent [] [horizontal]
    turn.iterations = 1 ∧ turn.error.isSome = true ∧ turn.geometry = collapsing ∧
      (solver.run .silent [tangent, horizontal] collapsing).geometry =
        (solver.run .silent [horizontal] collapsing).geometry := by
  intro tangent horizontal solver turn
  have hfailed : turn.error.isSome = true := by decide +kernel
  obtain ⟨hback, _, hgeometry, _⟩ := run_of_failed solver .silent collapsing [] [horizontal] rfl hfailed
  exact ⟨by decide +kernel, hfailed, hback, hgeometry⟩

end Solver

end Drafting
