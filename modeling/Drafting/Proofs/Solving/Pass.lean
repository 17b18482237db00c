import Drafting.Proofs.Solving.Attempt
import Drafting.Proofs.Solving.Order

/-! Passes as rows of turns.

A pass is confined to what its active constraints mention, because each turn is.
The other half is what a verdict looks at: the outcome of the turn, and the final
geometry around the constraint (`Attempt.Alike.verdict_eq`). Since constraints of a
list need not have different identifiers, a pass is described by its `results`:
each solution next to the constraint that it belongs to. -/
namespace Drafting

section Turns
variable (observer : Observer) (settings : SolverSettings)

theorem attempts_append (l l' : List Constraint) (snapshot : Snapshot) :
    attempts observer settings (l ++ l') snapshot =
      ((attempts observer settings l snapshot).1 ++
          (attempts observer settings l' (attempts observer settings l snapshot).2).1,
        (attempts observer settings l' (attempts observer settings l snapshot).2).2) := by
  induction l generalizing snapshot with
  | nil => rfl
  | cons c rest ih => simp only [List.cons_append, attempts, ih]

/-- There is one turn for each constraint, in order. -/
theorem constraints_attempts (l : List Constraint) (snapshot : Snapshot) :
    (attempts observer settings l snapshot).1.map (·.constraint) = l := by
  induction l generalizing snapshot with
  | nil => rfl
  | cons c rest ih => simp only [attempts, List.map_cons, Constraint.attempt_constraint, ih]

theorem map_constraint_attempts {α : Type} (f : Constraint → α) (l : List Constraint) (snapshot : Snapshot) :
    (attempts observer settings l snapshot).1.map (fun a => f a.constraint) = l.map f := by
  have hmap := congrArg (List.map f) (constraints_attempts observer settings l snapshot)
  rwa [List.map_map] at hmap

theorem length_attempts (l : List Constraint) (snapshot : Snapshot) :
    (attempts observer settings l snapshot).1.length = l.length := by
  simpa using congrArg List.length (constraints_attempts observer settings l snapshot)

/-- What every step of every constraint keeps, their turns keep. -/
theorem attempts_preserve {P : Snapshot → Prop} {l : List Constraint}
    (hstep : ∀ c ∈ l, ∀ s t, P s → c.step settings s = .ok t → P t) {snapshot : Snapshot} (h : P snapshot) :
    P (attempts observer settings l snapshot).2 := by
  induction l generalizing snapshot with
  | nil => exact h
  | cons c rest ih =>
    obtain ⟨hc, hrest⟩ := List.forall_mem_cons.mp hstep
    exact ih hrest (Constraint.attempt_preserves observer hc h)

theorem attempts_confined (l : List Constraint) (snapshot : Snapshot) :
    Snapshot.Confined (l.flatMap (·.entities)) snapshot (attempts observer settings l snapshot).2 := by
  refine attempts_preserve observer settings (fun c hc s t hs hnext => hs.trans ?_) (.refl _ snapshot)
  exact (Constraint.step_confined hnext).mono fun id hid => List.mem_flatMap.mpr ⟨c, hc, hid⟩

end Turns

/-! ### Verdicts -/

section Verdicts
variable {settings : SolverSettings}

/-- What a solution takes over from the turn as it is. -/
theorem Attempt.verdict_turn (settings : SolverSettings) (a : Attempt) (final : Snapshot) :
    ∃ satisfied residual error,
      a.verdict settings final = ⟨a.constraint.id, satisfied, a.updates, a.iterations, residual, error⟩ := by
  unfold verdict
  split
  · exact ⟨_, _, _, rfl⟩
  · split
    · exact ⟨_, _, _, rfl⟩
    · exact ⟨_, _, _, rfl⟩

@[simp] theorem Attempt.verdict_constraint (a : Attempt) (final : Snapshot) :
    (a.verdict settings final).constraint = a.constraint.id := by
  obtain ⟨_, _, _, h⟩ := a.verdict_turn settings final
  rw [h]

@[simp] theorem Attempt.verdict_updates (a : Attempt) (final : Snapshot) :
    (a.verdict settings final).updates = a.updates := by
  obtain ⟨_, _, _, h⟩ := a.verdict_turn settings final
  rw [h]

@[simp] theorem Attempt.verdict_iterations (a : Attempt) (final : Snapshot) :
    (a.verdict settings final).iterations = a.iterations := by
  obtain ⟨_, _, _, h⟩ := a.verdict_turn settings final
  rw [h]

/-- The error of the turn outlives the final sweep. -/
theorem Attempt.verdict_of_error {a : Attempt} {e : SolveError} (h : a.error = some e) (final : Snapshot) :
    a.verdict settings final = ⟨a.constraint.id, false, a.updates, a.iterations, 1.0 / 0.0, some e⟩ := by
  simp only [verdict, h]

theorem Attempt.Alike.verdict_eq (settings : SolverSettings) {ids : List EntityId} {a b : Attempt}
    {final final' : Snapshot} (h : a.Alike ids b) (hsub : b.constraint.entities ⊆ ids) (hfinal : final.AgreeOn ids final') :
    a.verdict settings final = b.verdict settings final' := by
  simp only [verdict, h.error, h.constraint, h.updates, h.iterations,
    Constraint.residual_congr (hfinal.mono hsub)]

end Verdicts

/-! ### Results -/

/-- A bare constraint: active, of normal priority, and without parameters. -/
def Constraint.bare (number : BitVec 128) (kind : ConstraintKind) (entities : List EntityId) : Constraint :=
  { id := ⟨⟨number⟩⟩, kind, entities, parameters := .empty, active := true, satisfied := false
    priority := .normal, metadata := .new default none }

/-- What the active constraints of a list refer to. -/
def mentioned (l : List Constraint) : List EntityId := (l.filter (·.active)).flatMap (·.entities)

theorem mem_mentioned {l : List Constraint} {id : EntityId} :
    id ∈ mentioned l ↔ ∃ c ∈ l, c.active = true ∧ id ∈ c.entities := by
  simp [mentioned, and_assoc]

theorem entities_subset_mentioned {l : List Constraint} {c : Constraint} (h : c ∈ solveOrder l) :
    c.entities ⊆ mentioned l := by
  obtain ⟨hmem, hactive⟩ := mem_solveOrder.mp h
  exact fun id hid => mem_mentioned.mpr ⟨c, hmem, hactive, hid⟩

/-- Each turn's constraint with its solution. -/
def judgements (settings : SolverSettings) (final : Snapshot) (turns : List Attempt) : List (Constraint × Solution) :=
  turns.map fun a => (a.constraint, a.verdict settings final)

namespace Solver

variable (solver : Solver) (observer : Observer) (l : List Constraint) (snapshot : Snapshot)

/-- The solved constraints of a pass, in order, each with its solution. -/
def results : List (Constraint × Solution) := (solveOrder l).zip (solver.run observer l snapshot).solutions

theorem run_geometry :
    (solver.run observer l snapshot).geometry = (attempts observer solver.settings (solveOrder l) snapshot).2 := rfl

theorem run_solutions :
    (solver.run observer l snapshot).solutions =
      (attempts observer solver.settings (solveOrder l) snapshot).1.map
        (·.verdict solver.settings (solver.run observer l snapshot).geometry) := rfl

/-- Solutions come in the order of their constraints. -/
theorem run_constraints :
    (solver.run observer l snapshot).solutions.map (·.constraint) = (solveOrder l).map (·.id) := by
  rw [run_solutions, List.map_map, ← map_constraint_attempts observer solver.settings _ (solveOrder l) snapshot]
  exact List.map_congr_left fun a _ => Attempt.verdict_constraint ..

theorem results_eq :
    solver.results observer l snapshot =
      judgements solver.settings (solver.run observer l snapshot).geometry
        (attempts observer solver.settings (solveOrder l) snapshot).1 := by
  have horder := constraints_attempts observer solver.settings (solveOrder l) snapshot
  rw [results, run_solutions, judgements]
  nth_rewrite 1 [← horder]
  rw [List.zip_map']

/-- What every step of every active constraint keeps, a pass keeps. -/
theorem run_preserves {P : Snapshot → Prop}
    (hstep : ∀ c ∈ l, c.active = true → ∀ s t, P s → c.step solver.settings s = .ok t → P t) (h : P snapshot) :
    P (solver.run observer l snapshot).geometry := by
  refine attempts_preserve observer solver.settings (fun c hc => ?_) h
  obtain ⟨hmem, hactive⟩ := mem_solveOrder.mp hc
  exact hstep c hmem hactive

/-- **A pass changes nothing but what its active constraints mention, and no shape.** -/
theorem run_confined : Snapshot.Confined (mentioned l) snapshot (solver.run observer l snapshot).geometry := by
  refine (attempts_confined observer solver.settings (solveOrder l) snapshot).mono fun id hid => ?_
  obtain ⟨c, hc, hid⟩ := List.mem_flatMap.mp hid
  exact entities_subset_mentioned hc hid

end Solver

end Drafting
