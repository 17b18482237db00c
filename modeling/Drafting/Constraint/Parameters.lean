import Drafting.Constraint.Kind
import Drafting.Number.Text
import Drafting.Plane.Point
import Drafting.Table

/-! The parameters of a constraint: values by name. Any name may hold a value of any shape;
each reader asks for one shape and finds nothing in the others. -/
namespace Drafting

/-- A parameter. -/
inductive ParameterValue where
  | number (x : Float)
  | point (p : Point)
  | vector (v : Vec)
  deriving DecidableEq

abbrev Parameters := Table ParameterKey ParameterValue

namespace ParameterValue

/-- The value in sentences about it. -/
def text : ParameterValue → String
  | .number x => "Float(" ++ number x ++ ")"
  | .point p => "Point([" ++ number p.x ++ ", " ++ number p.y ++ "])"
  | .vector v => "Vector([[" ++ number v.x ++ ", " ++ number v.y ++ "]])"
where
  number (x : Float) : String := Number.quoted.text x

/-- Whether two values have one shape and compare equal. -/
def agrees : ParameterValue → ParameterValue → Bool
  | .number x, .number y => x == y
  | .point p, .point q => p.agrees q
  | .vector v, .vector w => v.agrees w
  | _, _ => false

end ParameterValue

namespace Parameters

def number? (ps : Parameters) (key : ParameterKey) : Option Float :=
  match ps.get? key with
  | some (.number x) => some x
  | _ => none

def point? (ps : Parameters) (key : ParameterKey) : Option Point :=
  match ps.get? key with
  | some (.point p) => some p
  | _ => none

def vector? (ps : Parameters) (key : ParameterKey) : Option Vec :=
  match ps.get? key with
  | some (.vector v) => some v
  | _ => none

/-- Whether two collections have the same names and agreeing values. -/
def agrees (ps qs : Parameters) : Bool := ps.matchesBy ParameterValue.agrees qs

end Parameters

end Drafting
