import Drafting.Document.Basic
import Drafting.Entity.Update

/-! Documents: points, entities and their updates.

A point is an array of its two coordinates. An entity is tagged with its kind and
holds all fields of that kind; an update has the same form and holds the fields
that change. -/
namespace Drafting

open Json

instance : Codec Point where
  encode p := .array [encode p.x, encode p.y]
  decode?
    | .array [x, y] => return ⟨← decode? x, ← decode? y⟩
    | _ => none

instance : Codec Vec where
  encode v := .array [encode v.x, encode v.y]
  decode?
    | .array [x, y] => return ⟨← decode? x, ← decode? y⟩
    | _ => none

namespace EntityKind

/-- The names of an entity's fields, in their declared order. -/
def fields : EntityKind → List String
  | .point => ["position"]
  | .line => ["start", "end"]
  | .circle => ["center", "radius"]
  | .arc => ["center", "radius", "start_angle", "end_angle"]
  | .rectangle => ["position", "width", "height"]
  | .polyline => ["points", "closed"]

/-- The tagged record of an entity of this kind from the values of its fields. -/
def record (k : EntityKind) (values : List (Option Value)) : Value :=
  .tagged k.tag (.record (k.fields.zip values))

/-- The kind and the fields of a tagged record. -/
def ofRecord? (v : Value) : Option (EntityKind × List (Option Value)) := do
  let (name, body) ← v.choice?
  let k ← all.find? (·.tag == name)
  return (k, ← (← body).fields? k.fields)

end EntityKind

instance : Codec Entity where
  encode e := e.kind.record <|
    match e with
    | .point p => [some (encode p)]
    | .line s e => [some (encode s), some (encode e)]
    | .circle c r => [some (encode c), some (encode r)]
    | .arc c r s e => [some (encode c), some (encode r), some (encode s), some (encode e)]
    | .rectangle p w h => [some (encode p), some (encode w), some (encode h)]
    | .polyline ps closed => [some (encode ps), some (encode closed)]
  decode? v := do
    match ← EntityKind.ofRecord? v with
    | (.point, [p]) => return .point (← required p)
    | (.line, [s, e]) => return .line (← required s) (← required e)
    | (.circle, [c, r]) => return .circle (← required c) (← required r)
    | (.arc, [c, r, s, e]) => return .arc (← required c) (← required r) (← required s) (← required e)
    | (.rectangle, [p, w, h]) => return .rectangle (← required p) (← required w) (← required h)
    | (.polyline, [ps, closed]) => return .polyline (← required ps) (← required closed)
    | _ => none

instance : Codec EntityUpdate where
  encode u := u.kind.record <|
    match u with
    | .point p => [p.map encode]
    | .line s e => [s.map encode, e.map encode]
    | .circle c r => [c.map encode, r.map encode]
    | .arc c r s e => [c.map encode, r.map encode, s.map encode, e.map encode]
    | .rectangle p w h => [p.map encode, w.map encode, h.map encode]
    | .polyline ps closed => [ps.map encode, closed.map encode]
  decode? v := do
    match ← EntityKind.ofRecord? v with
    | (.point, [p]) => return .point (← omittable p)
    | (.line, [s, e]) => return .line (← omittable s) (← omittable e)
    | (.circle, [c, r]) => return .circle (← omittable c) (← omittable r)
    | (.arc, [c, r, s, e]) => return .arc (← omittable c) (← omittable r) (← omittable s) (← omittable e)
    | (.rectangle, [p, w, h]) => return .rectangle (← omittable p) (← omittable w) (← omittable h)
    | (.polyline, [ps, closed]) => return .polyline (← omittable ps) (← omittable closed)
    | _ => none

/-- Values by entity. -/
instance {ν : Type} [Codec ν] : Codec (Table EntityId ν) where
  encode := encodeTable EntityId.text
  decode? := decodeTable? fun s => (Uuid.ofText? s).map EntityId.mk

end Drafting
