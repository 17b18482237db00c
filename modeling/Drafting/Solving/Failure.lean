import Drafting.Constraint.Kind
import Drafting.Entity.Basic

/-! Why a constraint could not be solved.

Only a `Degeneracy` depends on coordinates: a line that a constraint takes a
direction from has no length. The other causes lie in the constraint and in which
entities there are. -/
namespace Drafting

/-- What a line without length is to the constraint. -/
inductive DegenerateRole where
  | line
  | axis
  deriving DecidableEq, Repr

/-- A line without length, where a direction is needed. -/
structure Degeneracy where
  id : EntityId
  role : DegenerateRole
  deriving DecidableEq

def DegenerateRole.reason : DegenerateRole → String
  | .line => "line has zero length"
  | .axis => "symmetry axis has zero length"

/-- Why a constraint could not be solved. -/
inductive SolveError where
  | entityNotFound (id : EntityId)
  | wrongEntityType (id : EntityId) (expected : String) (actual : EntityKind)
  | degenerateGeometry (id : EntityId) (reason : String)
  | missingParameter (kind : ConstraintKind) (key : ParameterKey)
  /-- The constraint names too few entities. -/
  | malformed (detail : String)
  /-- The attempt was interrupted from outside. -/
  | internal (detail : String)
  deriving DecidableEq

def Degeneracy.error (d : Degeneracy) : SolveError := .degenerateGeometry d.id d.role.reason

def SolveError.message : SolveError → String
  | .entityNotFound id => "Entity " ++ id.text ++ " is missing from the current snapshot"
  | .wrongEntityType id expected actual =>
    "Entity " ++ id.text ++ " is a " ++ actual.text ++ ", expected a " ++ expected
  | .degenerateGeometry id reason => "Degenerate geometry on entity " ++ id.text ++ ": " ++ reason
  | .missingParameter kind key => kind.text ++ " is missing its " ++ key.text ++ " parameter"
  | .malformed detail => "Malformed constraint: " ++ detail
  | .internal detail => "Internal solver error: " ++ detail

end Drafting
