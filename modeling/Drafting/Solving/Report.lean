import Drafting.Constraint.Basic
import Drafting.Entity.Update
import Drafting.Number.Extremum
import Drafting.Solving.Failure

/-! What a pass has to say: a solution for every constraint and a report on all of them. -/
namespace Drafting

/-- The outcome of a pass for one constraint. -/
structure Solution where
  constraint : ConstraintId
  satisfied : Bool
  /-- Updates of the entities that this constraint moved. -/
  updates : Batch
  /-- The corrective steps that were made. -/
  iterations : UInt32
  /-- How far the constraint is from holding at the end of the pass. -/
  residual : Float
  error : Option SolveError
  deriving DecidableEq

/-- A constraint that repeats an earlier one. -/
structure Redundancy where
  constraint : ConstraintId
  duplicates : ConstraintId
  reason : String
  deriving DecidableEq

/-- The summary of a pass. -/
structure Report where
  constraintCount : Nat
  satisfiedCount : Nat
  unsatisfiedCount : Nat
  totalIterations : UInt32
  /-- The largest final residual among the solutions without error. -/
  maxResidual : Float
  status : String
  redundant : List Redundancy
  deriving DecidableEq

def Report.allSatisfied (r : Report) : Bool := r.unsatisfiedCount == 0

namespace Redundancy

/-- The constraints of a list that repeat one before them, each with the first that it repeats;
`earlier` stands before the list. -/
def among (earlier : List Constraint) : List Constraint → List Redundancy
  | [] => []
  | c :: rest =>
    match earlier.find? (·.duplicates c) with
    | some first =>
      ⟨c.id, first.id, "Exact duplicate of " ++ first.kind.text ++ " constraint " ++ first.id.text⟩ ::
        among (earlier ++ [c]) rest
    | none => among (earlier ++ [c]) rest

end Redundancy

/-- The state of a drawing in one sentence. -/
def Report.statusText (count unsatisfied : Nat) : String :=
  if count = 0 then "No active constraints"
  else if unsatisfied = 0 then "All constraints satisfied"
  else toString unsatisfied ++ " of " ++ toString count ++ " constraints unsatisfied"

/-- The report on constraints, in the order in which they were solved, and their solutions. -/
def Report.of (constraints : List Constraint) (solutions : List Solution) : Report :=
  let count := solutions.length
  let satisfied := (solutions.filter (·.satisfied)).length
  { constraintCount := count
    satisfiedCount := satisfied
    unsatisfiedCount := count - satisfied
    totalIterations := solutions.foldl (fun total s => total + s.iterations) 0
    maxResidual := Number.largest ((solutions.filter (·.error.isNone)).map (·.residual))
    status := statusText count (count - satisfied)
    redundant := Redundancy.among [] constraints }

/-- The balance of degrees of freedom: negative if over-constrained, positive if something can
still move. -/
structure Freedom where
  entities : Int32
  constrained : Int32
  remaining : Int32
  deriving DecidableEq

namespace Freedom

/-- What the entities bring in, less what the active constraints take away. -/
def of (constraints : List Constraint) (snapshot : Snapshot) : Freedom :=
  let brought := (snapshot.values.map Entity.freedom).sum
  let taken := ((constraints.filter (·.active)).map fun c => c.kind.equations c.entities.length).sum
  ⟨brought, taken, brought - taken⟩

def isFully (f : Freedom) : Bool := f.remaining == 0
def isUnder (f : Freedom) : Bool := 0 < f.remaining
def isOver (f : Freedom) : Bool := f.remaining < 0

end Freedom

end Drafting
