import Drafting.Settings
import Drafting.Solving.Residual

/-! Corrections: the step that brings a relation closer to holding.

A correction gives new values to the entities that move and leaves the others as
they are. Relations between distances go only a part of the way, as the settings
say; all others are met at once. -/
namespace Drafting

/-- The part of a full correction that a step of a kind makes. -/
def SolverSettings.part (settings : SolverSettings) (kind : ConstraintKind) : Float :=
  if kind.isIterative then settings.damping else 1.0

namespace Relation

/-- The unit vector from one point to another, or along the x axis if they coincide, and their
distance. -/
def towards (p q : Point) : Vec × Float :=
  let v := q - p
  if v.norm < epsilon then (⟨1.0, 0.0⟩, v.norm) else (v / v.norm, v.norm)

private def line (l : Line) (s : Segment) : List Subject := [⟨l.id, .ofSegment s⟩]

private def move (s : Subject) (target : Point) : Subject := ⟨s.id, s.entity.movedTo target⟩

private def resize (c : Round) (radius : Float) : List Subject := [⟨c.id, c.entity.withRadius radius⟩]

/-- The new values of the entities that move. -/
def correction (settings : SolverSettings) : Relation → Except Degeneracy (List Subject)
  | parallel l₁ l₂ => do
    let heading := Angle.nearestAlong (← l₁.angle) (← l₂.angle)
    return line l₂ (l₂.segment.rotated heading)
  | perpendicular l₁ l₂ => do
    let heading := Angle.nearestAcross (← l₁.angle) (← l₂.angle)
    return line l₂ (l₂.segment.rotated heading)
  | horizontal l => return line l ⟨l.segment.start, ⟨l.segment.stop.x, l.segment.start.y⟩⟩
  | vertical l => return line l ⟨l.segment.start, ⟨l.segment.start.x, l.segment.stop.y⟩⟩
  | tangentLine circle l touch => do
    let (current, wanted) ← tangentOffsets circle l touch
    return line l (l.segment.translated ((← l.normal) * (current - wanted)))
  | tangentCircles c₁ c₂ =>
    let (direction, d) := towards c₁.center c₂.center
    let target := c₁.center + direction * touchingDistance d c₁.radius c₂.radius
    return [⟨c₂.id, c₂.entity.translated (target - c₂.center)⟩]
  | concentric c₁ c₂ => return [⟨c₂.id, c₂.entity.movedTo c₁.center⟩]
  | coincident anchor moved => return moved.map (move · anchor)
  | collinear l₁ l₂ => do
    let turned := l₂.segment.rotated (Angle.nearestAlong (← l₁.angle) (← l₂.angle))
    return line l₂ (turned.translated ((← l₁.normal) * -(← l₁.signedDistance turned.start)))
  | equalLength l₁ l₂ => return line l₂ (l₂.segment.resized l₁.segment.length)
  | equalRadius c₁ c₂ => return resize c₂ c₁.radius
  | symmetric s₁ s₂ axis => do
    return [move s₂ (← axis.mirror s₁.reference)]
  | midpoint s host => return [move s (host.segment.start.midpoint host.segment.stop)]
  | distance target s₁ s₂ =>
    let (direction, d) := towards s₁.reference s₂.reference
    let shift := direction * ((target - d) * settings.part .distance)
    match settings.distanceMode with
    | .moveSecond => return [⟨s₂.id, s₂.entity.translated shift⟩]
    | .symmetric =>
      let half := shift * 0.5
      return [⟨s₁.id, s₁.entity.translated (-half)⟩, ⟨s₂.id, s₂.entity.translated half⟩]
  | angle target l₁ l₂ => do
    return line l₂ (l₂.segment.rotated ((← l₁.angle) + target))
  | radius target c => return resize c target
  | diameter target c => return resize c (target / 2.0)
  | length target l => return line l (l.segment.resized target)
  | fix target s => return [move s target]
  | pattern offset origin moved =>
    return (moved.zipIdx 1).map fun (s, place) => move s (patternPoint origin offset place)
  | offsetDistance target l₁ l₂ => do
    let turned := l₂.segment.rotated (Angle.nearestAlong (← l₁.angle) (← l₂.angle))
    let d ← l₁.signedDistance turned.start
    return line l₂ (turned.translated ((← l₁.normal) * ((onSideOf d target - d) * settings.part .offsetDistance)))

end Relation

namespace Constraint

/-- The new values that one corrective step gives. -/
def correction (settings : SolverSettings) (c : Constraint) (snapshot : Snapshot) :
    Except SolveError (List Subject) := do
  ((← c.relation? snapshot).correction settings).mapError Degeneracy.error

/-- The correction of someone who has not measured before. Some kinds then ask for less, or in another order: the
second of two circles need not be one, the axis is asked for before the second mirror image and the line before
its midpoint, and two distant entities have to be named before either of them is looked for. The other kinds ask
for the same as to measure. -/
def correctionAlone (settings : SolverSettings) (c : Constraint) (snapshot : Snapshot) :
    Except SolveError (List Subject) :=
  match c.kind with
  | .concentric => do
    let fixed ← c.roundAt snapshot 0
    let moved ← c.subjectAt snapshot 1
    return [⟨moved.id, moved.entity.movedTo fixed.center⟩]
  | .equalRadius => do
    let fixed ← c.roundAt snapshot 0
    let moved ← c.subjectAt snapshot 1
    return [⟨moved.id, moved.entity.withRadius fixed.radius⟩]
  | .symmetric => do
    let fixed ← c.subjectAt snapshot 0
    let axis ← c.lineAt snapshot 2
    let target ← (axis.mirror fixed.reference).mapError Degeneracy.error
    let moved ← c.subjectAt snapshot 1
    return [⟨moved.id, moved.entity.movedTo target⟩]
  | .midpoint => do
    let host ← c.lineAt snapshot 1
    let moved ← c.subjectAt snapshot 0
    return [⟨moved.id, moved.entity.movedTo (host.segment.start.midpoint host.segment.stop)⟩]
  | .distance => do
    let target ← c.numberOf .distance
    let _ ← c.idAt 0
    let _ ← c.idAt 1
    let first ← c.subjectAt snapshot 0
    let second ← c.subjectAt snapshot 1
    ((Relation.distance target first second).correction settings).mapError Degeneracy.error
  | _ => c.correction settings snapshot

/-- The snapshot after one corrective step. -/
def step (settings : SolverSettings) (c : Constraint) (snapshot : Snapshot) : Except SolveError Snapshot := do
  let changes ← c.correction settings snapshot
  return snapshot.insertAll (changes.map fun s => (s.id, s.entity))

end Constraint

end Drafting
