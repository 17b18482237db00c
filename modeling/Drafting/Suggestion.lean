import Drafting.Constraint.Kind
import Drafting.Entity.Basic
import Drafting.Plane.Angle
import Drafting.Settings

/-! Suggestions: what nearly holds between two entities.

Two lines are nearly parallel or else nearly perpendicular; two round entities
are nearly concentric or else of nearly equal radius. Other pairs, and lines
without length, suggest nothing. -/
namespace Drafting

/-- The constraint that a pair of entities nearly satisfies, if any. -/
def suggest (settings : SuggestionSettings) (a b : Entity) : Option ConstraintKind :=
  match a.segment?, b.segment? with
  | some s, some t =>
    if s.isDegenerate || t.isDegenerate then none
    else
      let between := Angle.betweenLines s.angle t.angle
      if between < settings.parallelDegrees * Angle.degree then some .parallel
      else if (between - Angle.halfPi).abs < settings.perpendicularDegrees * Angle.degree then
        some .perpendicular
      else none
  | _, _ =>
    match a.circular?, b.circular? with
    | some (c₁, r₁), some (c₂, r₂) =>
      if c₁.distance c₂ < settings.concentricDistance then some .concentric
      else if (r₁ - r₂).abs < settings.equalRadiusDelta then some .equalRadius
      else none
    | _, _ => none

/-- What made a suggestion, as a description of the constraint. -/
def ConstraintKind.suggestionText : ConstraintKind → String
  | .parallel => "auto: near-parallel lines"
  | .perpendicular => "auto: near-perpendicular lines"
  | .concentric => "auto: near-concentric circles"
  | .equalRadius => "auto: near-equal radii"
  | _ => "auto"

end Drafting
