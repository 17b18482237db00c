/-! Points and vectors of the drawing plane.

Coordinates are floating point numbers. Two points are *the same* if they are
equal as values, and they *agree* if their coordinates compare equal: zeros of
different sign agree, and what is not a number agrees with nothing. Sums of
products are formed without scaling, so a norm can overflow or vanish. -/
namespace Drafting

/-- A point of the plane. -/
structure Point where
  x : Float
  y : Float
  deriving DecidableEq, Inhabited

/-- A displacement in the plane. -/
structure Vec where
  x : Float
  y : Float
  deriving DecidableEq, Inhabited

/-- Lengths below this count as zero. -/
def epsilon : Float := 1e-6

namespace Vec

instance : Neg Vec := ⟨fun v => ⟨-v.x, -v.y⟩⟩
instance : HMul Vec Float Vec := ⟨fun v k => ⟨v.x * k, v.y * k⟩⟩
instance : HDiv Vec Float Vec := ⟨fun v k => ⟨v.x / k, v.y / k⟩⟩

def dot (v w : Vec) : Float := v.x * w.x + v.y * w.y

/-- Positive if `w` points to the left of `v`. -/
def cross (v w : Vec) : Float := v.x * w.y - v.y * w.x

/-- A quarter turn to the left. -/
def turned (v : Vec) : Vec := ⟨-v.y, v.x⟩

def norm (v : Vec) : Float := (v.x * v.x + v.y * v.y).sqrt

/-- The unit vector that points at an angle from the x axis. -/
def ofAngle (angle : Float) : Vec := ⟨angle.cos, angle.sin⟩

def isFinite (v : Vec) : Bool := v.x.isFinite && v.y.isFinite

def agrees (v w : Vec) : Bool := v.x == w.x && v.y == w.y

end Vec

namespace Point

def origin : Point := ⟨0.0, 0.0⟩

instance : HSub Point Point Vec := ⟨fun p q => ⟨p.x - q.x, p.y - q.y⟩⟩
instance : HAdd Point Vec Point := ⟨fun p v => ⟨p.x + v.x, p.y + v.y⟩⟩

/-- The displacement from the origin. -/
def toVec (p : Point) : Vec := ⟨p.x, p.y⟩

def distance (p q : Point) : Float := (q - p).norm

def midpoint (p q : Point) : Point := ⟨(p.x + q.x) * 0.5, (p.y + q.y) * 0.5⟩

def isFinite (p : Point) : Bool := p.x.isFinite && p.y.isFinite

def agrees (p q : Point) : Bool := p.x == q.x && p.y == q.y

/-- Whether two rows of points agree point by point. -/
def allAgree : List Point → List Point → Bool
  | [], [] => true
  | p :: ps, q :: qs => p.agrees q && allAgree ps qs
  | _, _ => false

end Point

end Drafting
