/-! The kinds of constraints.

The table of this library: for each kind, how many entities it relates, which
parameter carries its value or its point, whether it is approached in steps, and
how many degrees of freedom it takes away. -/
namespace Drafting

/-- What a constraint can ask of its entities. -/
inductive ConstraintKind where
  | parallel
  | perpendicular
  | horizontal
  | vertical
  | tangent
  | concentric
  | coincident
  | collinear
  | equalLength
  | equalRadius
  /-- The first two entities are mirror images across the third, a line. -/
  | symmetric
  /-- The first entity sits in the middle of the second, a line. -/
  | midpoint
  | distance
  | angle
  | radius
  | diameter
  | length
  | fix
  /-- The entity at place `i` sits `i` offsets from the first one. -/
  | pattern
  /-- Two parallel lines at a distance. -/
  | offsetDistance
  deriving DecidableEq, Repr

/-- How many entities a constraint relates. -/
inductive Arity where
  | exactly (n : Nat)
  | atLeast (n : Nat)
  deriving DecidableEq, Repr

/-- The names of parameters. Angles are in radians. -/
inductive ParameterKey where
  | distance
  | angle
  | radius
  | length
  | diameter
  | point
  | offset
  deriving DecidableEq, Repr

namespace Arity

def accepts : Arity → Nat → Bool
  | .exactly n, count => count == n
  | .atLeast n, count => n ≤ count

def text : Arity → String
  | .exactly n => "exactly " ++ toString n
  | .atLeast n => "at least " ++ toString n

end Arity

namespace ParameterKey

def all : List ParameterKey := [.distance, .angle, .radius, .length, .diameter, .point, .offset]

def text : ParameterKey → String
  | .distance => "distance"
  | .angle => "angle"
  | .radius => "radius"
  | .length => "length"
  | .diameter => "diameter"
  | .point => "point"
  | .offset => "offset"

end ParameterKey

namespace ConstraintKind

/-- The kinds in their listed order. -/
def all : List ConstraintKind :=
  [.parallel, .perpendicular, .horizontal, .vertical, .tangent, .concentric, .coincident, .collinear,
    .equalLength, .equalRadius, .symmetric, .midpoint, .distance, .angle, .radius, .diameter, .length, .fix,
    .pattern, .offsetDistance]

theorem mem_all (k : ConstraintKind) : k ∈ all := by cases k <;> decide

/-- The name, in sentences and as data. -/
def text : ConstraintKind → String
  | .parallel => "PARALLEL"
  | .perpendicular => "PERPENDICULAR"
  | .horizontal => "HORIZONTAL"
  | .vertical => "VERTICAL"
  | .tangent => "TANGENT"
  | .concentric => "CONCENTRIC"
  | .coincident => "COINCIDENT"
  | .collinear => "COLLINEAR"
  | .equalLength => "EQUAL_LENGTH"
  | .equalRadius => "EQUAL_RADIUS"
  | .symmetric => "SYMMETRIC"
  | .midpoint => "MIDPOINT"
  | .distance => "DISTANCE"
  | .angle => "ANGLE"
  | .radius => "RADIUS"
  | .diameter => "DIAMETER"
  | .length => "LENGTH"
  | .fix => "FIX"
  | .pattern => "PATTERN"
  | .offsetDistance => "OFFSET_DISTANCE"

def arity : ConstraintKind → Arity
  | .horizontal | .vertical | .radius | .diameter | .length | .fix => .exactly 1
  | .symmetric => .exactly 3
  | .coincident | .pattern => .atLeast 2
  | _ => .exactly 2

/-- The parameter that the value of a request is stored under. -/
def valueKey? : ConstraintKind → Option ParameterKey
  | .distance | .offsetDistance => some .distance
  | .angle => some .angle
  | .radius => some .radius
  | .length => some .length
  | .diameter => some .diameter
  | _ => none

/-- The parameter that the point of a request is stored under. -/
def pointKey? : ConstraintKind → Option ParameterKey
  | .fix | .tangent => some .point
  | .pattern => some .offset
  | _ => none

/-- Whether a corrective step goes only part of the way. -/
def isIterative : ConstraintKind → Bool
  | .distance | .offsetDistance => true
  | _ => false

/-- The degrees of freedom that a constraint on `count` entities takes away. -/
def equations (count : Nat) : ConstraintKind → Int32
  | .fix | .concentric | .collinear | .symmetric | .midpoint | .offsetDistance => 2
  | .coincident | .pattern => 2 * .ofNat (count - 1)
  | _ => 1

end ConstraintKind

end Drafting
