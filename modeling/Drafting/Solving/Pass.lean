import Drafting.Solving.Attempt
import Drafting.Solving.Report

/-! Passes: every active constraint once, the more important ones first.

Each constraint meets the geometry that the one before it left. The verdicts come
after the last turn and are measured on the final geometry, so a constraint that a
later one undid is reported unsatisfied, and one that a later one mended
satisfied. -/
namespace Drafting

/-- Puts a constraint before the first one that does not go ahead of it. -/
def insertByPriority (c : Constraint) : List Constraint → List Constraint
  | [] => [c]
  | d :: rest => if c.priority < d.priority then d :: insertByPriority c rest else c :: d :: rest

/-- The active constraints, higher priorities first; equal ones stay in order. -/
def solveOrder (constraints : List Constraint) : List Constraint :=
  (constraints.filter (·.active)).foldr insertByPriority []

/-- The turns of constraints one after the other, and the geometry behind the last. -/
def attempts (observer : Observer) (settings : SolverSettings) :
    List Constraint → Snapshot → List Attempt × Snapshot
  | [], snapshot => ([], snapshot)
  | c :: rest, snapshot =>
    let first := c.attempt observer settings snapshot
    let (others, final) := attempts observer settings rest first.geometry
    (first :: others, final)

/-- Judges a turn on the final geometry. The error of the turn itself comes first. -/
def Attempt.verdict (settings : SolverSettings) (final : Snapshot) (a : Attempt) : Solution :=
  let judged (satisfied : Bool) (residual : Float) (error : Option SolveError) : Solution :=
    ⟨a.constraint.id, satisfied, a.updates, a.iterations, residual, error⟩
  match a.error with
  | some e => judged false (1.0 / 0.0) (some e)
  | none =>
    match a.constraint.residual final with
    | .error e => judged false (1.0 / 0.0) (some e)
    | .ok r => judged (r < settings.tolerance) r none

/-- All that a pass produces. -/
structure Pass where
  solutions : List Solution
  geometry : Snapshot
  report : Report
  log : List Event
  deriving DecidableEq

/-- A solver with settings that have been checked. -/
structure Solver where
  settings : SolverSettings
  deriving DecidableEq

namespace Solver

/-- The solver with given settings, unless one is out of range. -/
def ofSettings (settings : SolverSettings) : Except SettingsError Solver := do
  settings.check
  return ⟨settings⟩

/-- One pass over the active constraints. -/
def run (solver : Solver) (observer : Observer) (constraints : List Constraint) (snapshot : Snapshot) : Pass :=
  let order := solveOrder constraints
  let (turns, final) := attempts observer solver.settings order snapshot
  let solutions := turns.map (·.verdict solver.settings final)
  let report := Report.of order solutions
  { solutions, geometry := final, report
    log := turns.flatMap (·.log) ++
      [.passDone report.satisfiedCount report.constraintCount report.totalIterations] }

end Solver

end Drafting
