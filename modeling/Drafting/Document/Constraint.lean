import Drafting.Document.Geometry

/-! Documents: constraints and requests for them.

Parameters are an object whose members are named for them, each value tagged with
its shape. A constraint that was written without parameters, verdict or priority
reads as one without parameters, not satisfied, of normal priority. -/
namespace Drafting

open Json

instance : Codec ParameterValue where
  encode
    | .number x => .tagged "Float" (encode x)
    | .point p => .tagged "Point" (encode p)
    | .vector v => .tagged "Vector" (encode v)
  decode? v := do
    match ← v.choice? with
    | ("Float", some x) => return .number (← decode? x)
    | ("Point", some p) => return .point (← decode? p)
    | ("Vector", some v) => return .vector (← decode? v)
    | _ => none

instance : Codec Parameters where
  encode := encodeTable ParameterKey.text
  decode? := decodeTable? fun s => ParameterKey.all.find? (·.text == s)

instance : Codec Metadata where
  encode m := .record
    [("created_at", some (encode m.created)),
      ("modified_at", some (encode m.modified)),
      ("description", m.description.map encode)]
  decode? v := do
    match ← v.fields? ["created_at", "modified_at", "description"] with
    | [created, modified, description] =>
      return ⟨← required created, ← required modified, ← omittable description⟩
    | _ => none

instance : Codec Constraint where
  encode c := .record
    [("id", some (encode c.id)),
      ("constraint_type", some (encode c.kind)),
      ("entity_ids", some (encode c.entities)),
      ("parameters", some (encode c.parameters)),
      ("active", some (encode c.active)),
      ("satisfied", some (encode c.satisfied)),
      ("priority", some (encode c.priority)),
      ("metadata", some (encode c.metadata))]
  decode? v := do
    match ← v.fields? ["id", "constraint_type", "entity_ids", "parameters", "active", "satisfied", "priority",
        "metadata"] with
    | [id, kind, entities, parameters, active, satisfied, priority, metadata] =>
      return { id := ← required id, kind := ← required kind, entities := ← required entities
               parameters := ← defaulted .empty parameters, active := ← required active
               satisfied := ← defaulted false satisfied, priority := ← defaulted .normal priority
               metadata := ← required metadata }
    | _ => none

instance : Codec Request where
  encode r := .record
    [("constraint_type", some (encode r.kind)),
      ("entity_ids", some (encode r.entities)),
      ("value", r.value.map encode),
      ("point", r.point.map encode),
      ("priority", r.priority.map encode),
      ("description", r.description.map encode)]
  decode? v := do
    match ← v.fields? ["constraint_type", "entity_ids", "value", "point", "priority", "description"] with
    | [kind, entities, value, point, priority, description] =>
      return ⟨← required kind, ← required entities, ← omittable value, ← omittable point, ← omittable priority,
        ← omittable description⟩
    | _ => none

end Drafting
