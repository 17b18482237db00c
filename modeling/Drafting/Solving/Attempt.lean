import Drafting.Entity.Update
import Drafting.Event
import Drafting.Solving.Correction

/-! Attempts: one constraint's turn in a pass.

An attempt follows a *course*: corrective steps until the residual is below the
tolerance, or a step does not reduce it, or the steps are used up, or something
fails. A course is kept whole, with every geometry it visits. Its outcome is all
or nothing: the entities of the constraint are noted down before the first step,
and after an error, or an interruption by the observer, they are put back into
the geometry that the last step left (`Snapshot.restored`) and there are no
updates. -/
namespace Drafting

/-- A geometry on the course of an attempt, with the residual there. -/
structure Visit where
  geometry : Snapshot
  residual : Float
  deriving DecidableEq

/-- How a course ends. -/
inductive Ending where
  /-- The residual does not reach the tolerance. -/
  | settled
  /-- No step is left. -/
  | exhausted
  /-- The last step did not reduce the residual. -/
  | stalled
  /-- The next step cannot be made. -/
  | uncorrected (error : SolveError)
  /-- The residual of the geometry that was reached cannot be measured. -/
  | unmeasured (error : SolveError)
  deriving DecidableEq

def Ending.error? : Ending → Option SolveError
  | .uncorrected e | .unmeasured e => some e
  | _ => none

/-- The course of an attempt: the measured geometries, the latest first, and how it ended. -/
structure Course where
  visits : List Visit
  ending : Ending
  /-- What the last step left, whether it could be measured or not. -/
  geometry : Snapshot
  deriving DecidableEq

namespace Course

variable (settings : SolverSettings) (c : Constraint)

/-- Goes on from a visit with at most `budget` steps; `earlier` are the visits before it. -/
def pursue : (budget : Nat) → Visit → (earlier : List Visit) → Course
  | 0, now, earlier =>
    ⟨now :: earlier, if settings.tolerance ≤ now.residual then .exhausted else .settled, now.geometry⟩
  | budget + 1, now, earlier =>
    if settings.tolerance ≤ now.residual then
      match c.step settings now.geometry with
      | .error e => ⟨now :: earlier, .uncorrected e, now.geometry⟩
      | .ok geometry =>
        match c.residual geometry with
        | .error e => ⟨now :: earlier, .unmeasured e, geometry⟩
        | .ok residual =>
          if now.residual ≤ residual then ⟨⟨geometry, residual⟩ :: now :: earlier, .stalled, geometry⟩
          else pursue budget ⟨geometry, residual⟩ (now :: earlier)
    else ⟨now :: earlier, .settled, now.geometry⟩

/-- The course that starts in a snapshot. -/
def of (snapshot : Snapshot) : Course :=
  match c.residual snapshot with
  | .error e => ⟨[], .unmeasured e, snapshot⟩
  | .ok residual => pursue settings c settings.maxIterations.toNat ⟨snapshot, residual⟩ []

/-- The number of steps that were made. -/
def steps (course : Course) : Nat :=
  match course.ending with
  | .unmeasured _ => course.visits.length
  | _ => course.visits.length - 1

/-- What there is to say about a course. A stalled one settles for the residual before the step
that did not help. -/
def events (course : Course) : List Event :=
  match course.ending, course.visits with
  | .uncorrected e, _ | .unmeasured e, _ => [.failed c.id c.kind e]
  | .stalled, last :: before :: _ =>
    [.stalled c.id course.steps last.residual, .settled c.id c.kind course.steps before.residual]
  | _, last :: _ => [.settled c.id c.kind course.steps last.residual]
  | _, [] => []

end Course

/-- A geometry with the entities of `before` put back. -/
def Snapshot.restored (before working : Snapshot) : Snapshot := working.insertAll before.entries

/-- The outcome of a constraint's turn. -/
structure Attempt where
  constraint : Constraint
  updates : Batch
  iterations : UInt32
  error : Option SolveError
  /-- The geometry that the next constraint finds. -/
  geometry : Snapshot
  log : List Event
  deriving DecidableEq

/-- A constraint's turn on a snapshot. -/
def Constraint.attempt (observer : Observer) (settings : SolverSettings) (c : Constraint)
    (snapshot : Snapshot) : Attempt :=
  let before : Snapshot := snapshot.restrict c.entities
  let course := Course.of settings c snapshot
  let (heard, refusal) := observer.hear (course.events c)
  match refusal, course.ending.error? with
  | some reason, _ =>
    { constraint := c, updates := .empty, iterations := 0, error := some (.internal reason)
      geometry := before.restored course.geometry, log := heard ++ [.interrupted c.id reason] }
  | none, some e =>
    { constraint := c, updates := .empty, iterations := .ofNat course.steps, error := some e
      geometry := before.restored course.geometry, log := heard }
  | none, none =>
    { constraint := c, updates := before.changes course.geometry, iterations := .ofNat course.steps, error := none
      geometry := course.geometry, log := heard }

end Drafting
