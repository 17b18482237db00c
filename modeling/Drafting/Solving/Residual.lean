import Drafting.Number.Extremum
import Drafting.Plane.Angle
import Drafting.Solving.Relation

/-! Residuals: how far a relation is from holding.

Zero means that it holds exactly. Lengths and distances are measured as they are,
headings in radians. A relation that takes the direction of a line cannot be
measured if that line has no length. -/
namespace Drafting

namespace Line

/-- The heading, if the line has one. -/
def angle (l : Line) : Except Degeneracy Float :=
  if l.segment.isDegenerate then .error ⟨l.id, .line⟩ else .ok l.segment.angle

private def orDegenerate {α : Type} (l : Line) (role : DegenerateRole) : Option α → Except Degeneracy α
  | some a => .ok a
  | none => .error ⟨l.id, role⟩

/-- The unit vector to the left, if the line has a heading. -/
def normal (l : Line) : Except Degeneracy Vec := l.orDegenerate .line l.segment.normal?

/-- The distance of a point, positive on the left, if the line has a heading. -/
def signedDistance (l : Line) (p : Point) : Except Degeneracy Float :=
  l.orDegenerate .line (l.segment.signedDistance? p)

/-- The mirror image of a point across the line, if the line has a heading. -/
def mirror (l : Line) (p : Point) : Except Degeneracy Point := l.orDegenerate .axis (l.segment.mirror? p)

end Line

namespace Relation

/-- The distance at which two circles touch that is nearer to their present distance `d`. Equal
circles touch from outside. -/
def touchingDistance (d r₁ r₂ : Float) : Float :=
  let outside := r₁ + r₂
  let inside := (r₁ - r₂).abs
  if inside < epsilon ∨ (d - outside).abs ≤ (d - inside).abs then outside else inside

/-- A distance of this magnitude on the side where `current` is. -/
def onSideOf (current magnitude : Float) : Float := if 0.0 ≤ current then magnitude else -magnitude

/-- The present and the wanted distance of a circle's center from a tangent line. A touch point off
the center puts the line on its side; otherwise the line stays on its own. -/
def tangentOffsets (circle : Round) (line : Line) (touch : Option Point) : Except Degeneracy (Float × Float) := do
  let current ← line.signedDistance circle.center
  let side ← match touch with
    | some p => do pure ((p - circle.center).dot (← line.normal))
    | none => pure 0.0
  let wanted :=
    if side.abs < epsilon then onSideOf current circle.radius
    else if 0.0 < side then -circle.radius
    else circle.radius
  return (current, wanted)

/-- Where the entity at a place of a pattern belongs. -/
def patternPoint (origin : Point) (offset : Vec) (place : Nat) : Point := origin + offset * Float.ofNat place

/-- How far the relation is from holding. -/
def residual : Relation → Except Degeneracy Float
  | parallel l₁ l₂ => do
    return Angle.betweenLines (← l₁.angle) (← l₂.angle)
  | perpendicular l₁ l₂ => do
    return (Angle.betweenLines (← l₁.angle) (← l₂.angle) - Angle.halfPi).abs
  | horizontal l => return (l.segment.stop.y - l.segment.start.y).abs
  | vertical l => return (l.segment.stop.x - l.segment.start.x).abs
  | tangentLine circle line touch => do
    let (current, wanted) ← tangentOffsets circle line touch
    return (current - wanted).abs
  | tangentCircles c₁ c₂ =>
    let d := c₁.center.distance c₂.center
    return (d - touchingDistance d c₁.radius c₂.radius).abs
  | concentric c₁ c₂ => return c₁.center.distance c₂.center
  | coincident anchor moved =>
    return Number.largest (moved.map fun s => anchor.distance s.reference)
  | collinear l₁ l₂ => do
    let start ← l₁.signedDistance l₂.segment.start
    let stop ← l₁.signedDistance l₂.segment.stop
    return Number.larger start.abs stop.abs
  | equalLength l₁ l₂ => return (l₁.segment.length - l₂.segment.length).abs
  | equalRadius c₁ c₂ => return (c₁.radius - c₂.radius).abs
  | symmetric s₁ s₂ axis => do
    return s₂.reference.distance (← axis.mirror s₁.reference)
  | midpoint s host => return s.reference.distance (host.segment.start.midpoint host.segment.stop)
  | distance target s₁ s₂ => return (s₁.reference.distance s₂.reference - target).abs
  | angle target l₁ l₂ => do
    let a₂ ← l₂.angle
    let a₁ ← l₁.angle
    return (Angle.wrap (a₂ - a₁ - target)).abs
  | radius target c => return (c.radius - target).abs
  | diameter target c => return (2.0 * c.radius - target).abs
  | length target l => return (l.segment.length - target).abs
  | fix target s => return s.reference.distance target
  | pattern offset origin moved =>
    return Number.largest ((moved.zipIdx 1).map fun (s, place) =>
      s.reference.distance (patternPoint origin offset place))
  | offsetDistance target l₁ l₂ => do
    let start ← l₁.signedDistance l₂.segment.start
    let stop ← l₁.signedDistance l₂.segment.stop
    let wanted := onSideOf start target
    return Number.larger (start - wanted).abs (stop - wanted).abs

end Relation

/-- How far a constraint is from holding in a snapshot. -/
def Constraint.residual (c : Constraint) (snapshot : Snapshot) : Except SolveError Float := do
  (← c.relation? snapshot).residual.mapError Degeneracy.error

end Drafting
