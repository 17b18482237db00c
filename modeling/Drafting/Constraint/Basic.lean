import Drafting.Constraint.Parameters
import Drafting.Identifier.Basic
import Drafting.Time.Timestamp

/-! Constraints.

A constraint asks something of a row of entities. Inactive ones are kept but not
solved, and `satisfied` is the verdict of the last pass that solved it. -/
namespace Drafting

/-- Higher priorities are solved first. -/
structure Priority where
  value : Int32
  deriving DecidableEq, Repr

namespace Priority

def low : Priority := ⟨0⟩
def normal : Priority := ⟨100⟩
def high : Priority := ⟨200⟩
def required : Priority := ⟨1000⟩

instance : Inhabited Priority := ⟨normal⟩
instance : LT Priority := ⟨fun p q => p.value < q.value⟩
instance (p q : Priority) : Decidable (p < q) := inferInstanceAs (Decidable (p.value < q.value))

end Priority

/-- When a constraint was made and last changed, and what for. -/
structure Metadata where
  created : Timestamp
  modified : Timestamp
  description : Option String
  deriving DecidableEq

/-- The metadata of something made now. -/
def Metadata.new (now : Timestamp) (description : Option String) : Metadata := ⟨now, now, description⟩

/-- A relation that a row of entities should satisfy. -/
structure Constraint where
  id : ConstraintId
  kind : ConstraintKind
  entities : List EntityId
  parameters : Parameters
  active : Bool
  satisfied : Bool
  priority : Priority
  metadata : Metadata
  deriving DecidableEq

namespace Constraint

/-- The constraint, marked as changed now. -/
def touched (now : Timestamp) (c : Constraint) : Constraint :=
  { c with metadata := { c.metadata with modified := now } }

/-- Whether an entity is one of those that the constraint relates. -/
def mentions (c : Constraint) (e : EntityId) : Bool := e ∈ c.entities

/-- Whether two constraints ask the same: one kind, agreeing parameters, and the same entities in
any order, so that sorted they are the same row (`EntityId.isPerm_eq_sorted`). -/
def duplicates (c d : Constraint) : Bool :=
  c.kind == d.kind && c.parameters.agrees d.parameters && c.entities.isPerm d.entities

end Constraint

/-- What someone asks for who wants a constraint. -/
structure Request where
  kind : ConstraintKind
  entities : List EntityId
  value : Option Float := none
  point : Option Point := none
  priority : Option Priority := none
  description : Option String := none
  deriving DecidableEq

/-- The parameters of a request. A value or a point that the kind has no place for is dropped. -/
def Request.parameters (r : Request) : Parameters :=
  let value := match r.kind.valueKey?, r.value with
    | some key, some x => [(key, ParameterValue.number x)]
    | _, _ => []
  let point := match r.kind.pointKey?, r.point with
    | some .offset, some p => [(ParameterKey.offset, ParameterValue.vector p.toVec)]
    | some key, some p => [(key, ParameterValue.point p)]
    | _, _ => []
  Table.ofList (value ++ point)

end Drafting
