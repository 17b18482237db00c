import Drafting.Constraint.Basic
import Drafting.Entity.Basic
import Drafting.Json.Codec
import Drafting.Settings

/-! Documents: names and numbers.

Identifiers and timestamps are written as their texts, and choices without data by
their names. Constraint kinds are capitals with underscores, parameter names and
distance modes small letters; entity kinds begin with a capital, which is how the
tags of entities are written too. -/
namespace Drafting

open Json

instance : Codec EntityId where
  encode id := .string id.text
  decode? v := ((decode? v : Option String).bind Uuid.ofText?).map EntityId.mk

instance : Codec ConstraintId where
  encode id := .string id.text
  decode? v := ((decode? v : Option String).bind Uuid.ofText?).map ConstraintId.mk

instance : Codec Timestamp where
  encode t := .string t.text
  decode? v := (decode? v : Option String).bind Timestamp.ofText?

/-- The name of an entity kind in documents. -/
def EntityKind.tag : EntityKind → String
  | .point => "Point"
  | .line => "Line"
  | .circle => "Circle"
  | .arc => "Arc"
  | .rectangle => "Rectangle"
  | .polyline => "Polyline"

/-- The name of a distance mode in documents. -/
def DistanceMode.tag : DistanceMode → String
  | .moveSecond => "move_second"
  | .symmetric => "symmetric"

instance : Codec EntityKind where
  encode k := .string k.tag
  decode? := oneOf? EntityKind.all EntityKind.tag

instance : Codec ConstraintKind where
  encode k := .string k.text
  decode? := oneOf? ConstraintKind.all ConstraintKind.text

instance : Codec ParameterKey where
  encode k := .string k.text
  decode? := oneOf? ParameterKey.all ParameterKey.text

instance : Codec DistanceMode where
  encode m := .string m.tag
  decode? := oneOf? [.moveSecond, .symmetric] DistanceMode.tag

instance : Codec Arity where
  encode
    | .exactly n => .tagged "Exactly" (encode n)
    | .atLeast n => .tagged "AtLeast" (encode n)
  decode? v := do
    match ← v.choice? with
    | ("Exactly", some n) => return .exactly (← decode? n)
    | ("AtLeast", some n) => return .atLeast (← decode? n)
    | _ => none

instance : Codec Priority where
  encode p := encode p.value
  decode? v := (decode? v).map Priority.mk

end Drafting
