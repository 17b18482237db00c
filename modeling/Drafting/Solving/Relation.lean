import Drafting.Constraint.Basic
import Drafting.Solving.Failure

/-! Relations: constraints with their references looked up.

`Constraint.relation?` finds the entities of a constraint in a snapshot and its
parameters, or fails with the first of them that is missing or of the wrong kind.
It reads no coordinates to decide that. The relation it returns holds all that
measuring and correcting need, so neither can fail on a reference again. -/
namespace Drafting

/-- An entity in its place. -/
structure Subject where
  id : EntityId
  entity : Entity
  deriving DecidableEq

def Subject.reference (s : Subject) : Point := s.entity.reference

/-- A line in its place. -/
structure Line where
  id : EntityId
  segment : Segment
  deriving DecidableEq

/-- A circle or an arc in its place. -/
structure Round where
  id : EntityId
  entity : Entity
  center : Point
  radius : Float
  deriving DecidableEq

/-- A constraint whose references have been looked up. What is `fixed` is measured only; what is
`moved` gives way. -/
inductive Relation where
  | parallel (fixed moved : Line)
  | perpendicular (fixed moved : Line)
  | horizontal (moved : Line)
  | vertical (moved : Line)
  /-- The line gives way to the circle; a touch point tells on which side it lies. -/
  | tangentLine (fixed : Round) (moved : Line) (touch : Option Point)
  | tangentCircles (fixed moved : Round)
  | concentric (fixed moved : Round)
  | coincident (fixed : Point) (moved : List Subject)
  | collinear (fixed moved : Line)
  | equalLength (fixed moved : Line)
  | equalRadius (fixed moved : Round)
  | symmetric (fixed : Subject) (moved : Subject) (axis : Line)
  | midpoint (moved : Subject) (host : Line)
  | distance (target : Float) (first second : Subject)
  | angle (target : Float) (fixed moved : Line)
  | radius (target : Float) (moved : Round)
  | diameter (target : Float) (moved : Round)
  | length (target : Float) (moved : Line)
  | fix (target : Point) (moved : Subject)
  | pattern (offset : Vec) (origin : Point) (moved : List Subject)
  | offsetDistance (target : Float) (fixed moved : Line)
  deriving DecidableEq

namespace Constraint

variable (c : Constraint) (snapshot : Snapshot)

/-- The entity that stands at a place of the constraint. -/
def idAt (place : Nat) : Except SolveError EntityId :=
  match c.entities[place]? with
  | some id => .ok id
  | none =>
    .error (.malformed (c.kind.text ++ " has " ++ toString c.entities.length ++ " entities, needs index " ++
      toString place))

/-- An entity of the snapshot. -/
def subject (id : EntityId) : Except SolveError Subject :=
  match snapshot.get? id with
  | some e => .ok ⟨id, e⟩
  | none => .error (.entityNotFound id)

def subjectAt (place : Nat) : Except SolveError Subject := do subject snapshot (← c.idAt place)

/-- The subject as a line. -/
def asLine (s : Subject) : Except SolveError Line :=
  match s.entity.segment? with
  | some segment => .ok ⟨s.id, segment⟩
  | none => .error (.wrongEntityType s.id "line" s.entity.kind)

/-- The subject as a circle or an arc. -/
def asRound (s : Subject) : Except SolveError Round :=
  match s.entity.circular? with
  | some (center, radius) => .ok ⟨s.id, s.entity, center, radius⟩
  | none => .error (.wrongEntityType s.id "circle or arc" s.entity.kind)

def lineAt (place : Nat) : Except SolveError Line := do asLine (← c.subjectAt snapshot place)

def roundAt (place : Nat) : Except SolveError Round := do asRound (← c.subjectAt snapshot place)

/-- The entities behind the first one. -/
def others : Except SolveError (List Subject) := (c.entities.drop 1).mapM (subject snapshot)

/-- A parameter that must be there. -/
def demanded {α : Type} (key : ParameterKey) (value : Option α) : Except SolveError α :=
  match value with
  | some v => .ok v
  | none => .error (.missingParameter c.kind key)

def numberOf (key : ParameterKey) : Except SolveError Float := c.demanded key (c.parameters.number? key)

/-- A tangent pair: two circles, or a circle and a line in either order. -/
def tangentPair (first second : Subject) : Except SolveError Relation :=
  match first.entity.circular?, second.entity.circular? with
  | some (c₁, r₁), some (c₂, r₂) =>
    .ok (.tangentCircles ⟨first.id, first.entity, c₁, r₁⟩ ⟨second.id, second.entity, c₂, r₂⟩)
  | some (center, radius), none => do
    return .tangentLine ⟨first.id, first.entity, center, radius⟩ (← asLine second) (c.parameters.point? .point)
  | none, some (center, radius) => do
    return .tangentLine ⟨second.id, second.entity, center, radius⟩ (← asLine first) (c.parameters.point? .point)
  | none, none => .error (.wrongEntityType first.id "circle or arc" first.entity.kind)

/-- The relation that a constraint states in a snapshot. -/
def relation? : Except SolveError Relation := do
  match c.kind with
  | .parallel => return .parallel (← c.lineAt snapshot 0) (← c.lineAt snapshot 1)
  | .perpendicular => return .perpendicular (← c.lineAt snapshot 0) (← c.lineAt snapshot 1)
  | .horizontal => return .horizontal (← c.lineAt snapshot 0)
  | .vertical => return .vertical (← c.lineAt snapshot 0)
  | .tangent => c.tangentPair (← c.subjectAt snapshot 0) (← c.subjectAt snapshot 1)
  | .concentric => return .concentric (← c.roundAt snapshot 0) (← c.roundAt snapshot 1)
  | .coincident => return .coincident (← c.subjectAt snapshot 0).reference (← c.others snapshot)
  | .collinear => return .collinear (← c.lineAt snapshot 0) (← c.lineAt snapshot 1)
  | .equalLength => return .equalLength (← c.lineAt snapshot 0) (← c.lineAt snapshot 1)
  | .equalRadius => return .equalRadius (← c.roundAt snapshot 0) (← c.roundAt snapshot 1)
  | .symmetric =>
    return .symmetric (← c.subjectAt snapshot 0) (← c.subjectAt snapshot 1) (← c.lineAt snapshot 2)
  | .midpoint => return .midpoint (← c.subjectAt snapshot 0) (← c.lineAt snapshot 1)
  | .distance =>
    return .distance (← c.numberOf .distance) (← c.subjectAt snapshot 0) (← c.subjectAt snapshot 1)
  | .angle => return .angle (← c.numberOf .angle) (← c.lineAt snapshot 0) (← c.lineAt snapshot 1)
  | .radius => return .radius (← c.numberOf .radius) (← c.roundAt snapshot 0)
  | .diameter => return .diameter (← c.numberOf .diameter) (← c.roundAt snapshot 0)
  | .length => return .length (← c.numberOf .length) (← c.lineAt snapshot 0)
  | .fix => return .fix (← c.demanded .point (c.parameters.point? .point)) (← c.subjectAt snapshot 0)
  | .pattern =>
    return .pattern (← c.demanded .offset (c.parameters.vector? .offset)) (← c.subjectAt snapshot 0).reference
      (← c.others snapshot)
  | .offsetDistance =>
    return .offsetDistance (← c.numberOf .distance) (← c.lineAt snapshot 0) (← c.lineAt snapshot 1)

end Constraint

end Drafting
