import Drafting.Plane.Point

/-! Segments, and the infinite lines through them.

What needs a direction is absent for a segment shorter than `epsilon`. The left
side of a line is the side to the left of someone who walks from start to end. -/
namespace Drafting

/-- A directed segment. -/
structure Segment where
  start : Point
  stop : Point
  deriving DecidableEq, Inhabited

namespace Segment

def vec (s : Segment) : Vec := s.stop - s.start

def length (s : Segment) : Float := s.start.distance s.stop

/-- Whether the segment is too short to have a direction. -/
def isDegenerate (s : Segment) : Bool := s.length < epsilon

/-- The direction from start to end, as an angle. -/
def angle (s : Segment) : Float := s.vec.y.atan2 s.vec.x

/-- The distance of a point from the line, positive on the left side. -/
def signedDistance? (s : Segment) (p : Point) : Option Float :=
  if s.vec.norm < epsilon then none else some (s.vec.cross (p - s.start) / s.vec.norm)

/-- The unit vector that points to the left side. -/
def normal? (s : Segment) : Option Vec :=
  if s.vec.norm < epsilon then none else some (s.vec / s.vec.norm).turned

/-- The mirror image of a point across the line. -/
def mirror? (s : Segment) (p : Point) : Option Point :=
  let square := s.vec.dot s.vec
  if square < epsilon * epsilon then none
  else
    let foot := s.start + s.vec * ((p - s.start).dot s.vec / square)
    some (foot + (foot - p))

/-- The end of a segment from `start` at an angle with a length. -/
def reach (start : Point) (angle length : Float) : Point := start + Vec.ofAngle angle * length

/-- The segment turned about its start. -/
def rotated (s : Segment) (angle : Float) : Segment := ⟨s.start, reach s.start angle s.length⟩

/-- The segment with a new length and the same start. One too short to have a direction grows
along the x axis. -/
def resized (s : Segment) (length : Float) : Segment :=
  ⟨s.start, reach s.start (if s.isDegenerate then 0.0 else s.angle) length⟩

def translated (s : Segment) (v : Vec) : Segment := ⟨s.start + v, s.stop + v⟩

end Segment

end Drafting
