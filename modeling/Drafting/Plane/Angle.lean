import Drafting.Number.Extremum
import Drafting.Number.Remainder

/-! Angles, in radians.

A direction is known up to whole turns, an undirected line up to half turns.
`wrap` brings a direction near zero; the other functions compare or pick angles
with those freedoms in mind. -/
namespace Drafting.Angle

def pi : Float := 3.141592653589793

def tau : Float := 6.283185307179586

def halfPi : Float := 1.5707963267948966

/-- One degree. -/
def degree : Float := 0.017453292519943295

/-- The same direction, above `-π` and up to `π`. -/
def wrap (angle : Float) : Float :=
  let a := Number.remainder angle tau
  if a ≤ -pi then a + tau else if pi < a then a - tau else a

/-- The angle between two undirected lines, from zero to a quarter turn. -/
def betweenLines (a b : Float) : Float :=
  let d := Number.residue (a - b) pi
  Number.smaller d (pi - d)

/-- Of the two headings along a line, the one closer to `current`. -/
def nearestAlong (line current : Float) : Float :=
  if (wrap (current - line)).abs ≤ (wrap (current - (line + pi))).abs then line else line + pi

/-- Of the two headings across a line, the one closer to `current`. -/
def nearestAcross (line current : Float) : Float := nearestAlong (line + halfPi) current

end Drafting.Angle
