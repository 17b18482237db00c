import Drafting.Identifier.Basic
import Drafting.Plane.Segment
import Drafting.Table

/-! Entities: what a drawing is made of.

An entity is a value; moving one makes another of the same kind. Every entity has
a reference point, which positional constraints speak of, and a translation moves
the reference point with the entity. -/
namespace Drafting

/-- The kinds of entities. -/
inductive EntityKind where
  | point
  | line
  | circle
  | arc
  | rectangle
  | polyline
  deriving DecidableEq, Repr

namespace EntityKind

def all : List EntityKind := [.point, .line, .circle, .arc, .rectangle, .polyline]

/-- The name in sentences. -/
def text : EntityKind → String
  | .point => "point"
  | .line => "line"
  | .circle => "circle"
  | .arc => "arc"
  | .rectangle => "rectangle"
  | .polyline => "polyline"

/-- Circles and arcs have a center and a radius. -/
def isCircular : EntityKind → Bool
  | .circle | .arc => true
  | _ => false

end EntityKind

/-- A drawable entity. -/
inductive Entity where
  | point (position : Point)
  | line (start stop : Point)
  | circle (center : Point) (radius : Float)
  | arc (center : Point) (radius startAngle endAngle : Float)
  /-- Along the axes, from its lower left corner. -/
  | rectangle (position : Point) (width height : Float)
  | polyline (points : List Point) (closed : Bool)
  deriving DecidableEq

/-- The entities of a drawing at one moment. -/
abbrev Snapshot := Table EntityId Entity

namespace Entity

def kind : Entity → EntityKind
  | .point .. => .point
  | .line .. => .line
  | .circle .. => .circle
  | .arc .. => .arc
  | .rectangle .. => .rectangle
  | .polyline .. => .polyline

/-- The point that positional constraints speak of. -/
def reference : Entity → Point
  | .point position => position
  | .line start _ => start
  | .circle center _ => center
  | .arc center _ _ _ => center
  | .rectangle position _ _ => position
  | .polyline points _ => points.head?.getD .origin

/-- The segment of a line. -/
def segment? : Entity → Option Segment
  | .line start stop => some ⟨start, stop⟩
  | _ => none

/-- Center and radius of a circle or an arc. -/
def circular? : Entity → Option (Point × Float)
  | .circle center radius => some (center, radius)
  | .arc center radius _ _ => some (center, radius)
  | _ => none

/-- The line along a segment. -/
def ofSegment (s : Segment) : Entity := .line s.start s.stop

def translated (v : Vec) : Entity → Entity
  | .point position => .point (position + v)
  | .line start stop => .line (start + v) (stop + v)
  | .circle center radius => .circle (center + v) radius
  | .arc center radius startAngle endAngle => .arc (center + v) radius startAngle endAngle
  | .rectangle position width height => .rectangle (position + v) width height
  | .polyline points closed => .polyline (points.map (· + v)) closed

/-- The entity moved so that its reference point comes to `target`. -/
def movedTo (target : Point) (e : Entity) : Entity := e.translated (target - e.reference)

/-- The entity with another radius; one that has none stays as it is. -/
def withRadius (radius : Float) : Entity → Entity
  | .circle center _ => .circle center radius
  | .arc center _ startAngle endAngle => .arc center radius startAngle endAngle
  | e => e

/-- The degrees of freedom that an entity brings into a drawing. -/
def freedom : Entity → Int32
  | .point .. => 2
  | .line .. => 4
  | .circle .. => 3
  | .arc .. => 5
  | .rectangle .. => 4
  | .polyline points _ => 2 * .ofNat points.length

/-- Whether two entities are of one kind and their fields compare equal. -/
def agrees : Entity → Entity → Bool
  | .point p, .point p' => p.agrees p'
  | .line s e, .line s' e' => s.agrees s' && e.agrees e'
  | .circle c r, .circle c' r' => c.agrees c' && r == r'
  | .arc c r s e, .arc c' r' s' e' => c.agrees c' && r == r' && s == s' && e == e'
  | .rectangle p w h, .rectangle p' w' h' => p.agrees p' && w == w' && h == h'
  | .polyline ps c, .polyline ps' c' => Point.allAgree ps ps' && c == c'
  | _, _ => false

@[simp] theorem kind_translated (v : Vec) (e : Entity) : (e.translated v).kind = e.kind := by
  cases e <;> rfl

@[simp] theorem kind_movedTo (p : Point) (e : Entity) : (e.movedTo p).kind = e.kind := kind_translated _ e

@[simp] theorem kind_withRadius (r : Float) (e : Entity) : (e.withRadius r).kind = e.kind := by
  cases e <;> rfl

end Entity

end Drafting
