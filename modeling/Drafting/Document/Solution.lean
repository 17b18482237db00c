import Drafting.Document.Geometry
import Drafting.Solving.Report

/-! Documents: solutions and reports. -/
namespace Drafting

open Json

instance : Codec SolveError where
  encode
    | .entityNotFound id => .tagged "EntityNotFound" (.record [("id", some (encode id))])
    | .wrongEntityType id expected actual =>
      .tagged "WrongEntityType"
        (.record [("id", some (encode id)), ("expected", some (encode expected)), ("actual", some (encode actual))])
    | .degenerateGeometry id reason =>
      .tagged "DegenerateGeometry" (.record [("id", some (encode id)), ("reason", some (encode reason))])
    | .missingParameter kind key =>
      .tagged "MissingParameter" (.record [("constraint_type", some (encode kind)), ("key", some (encode key))])
    | .malformed detail => .tagged "Malformed" (encode detail)
    | .internal detail => .tagged "Internal" (encode detail)
  decode? v := do
    let (name, data) ← v.choice?
    let body ← data
    match name with
    | "EntityNotFound" =>
      match ← body.fields? ["id"] with
      | [id] => return .entityNotFound (← required id)
      | _ => none
    | "WrongEntityType" =>
      match ← body.fields? ["id", "expected", "actual"] with
      | [id, expected, actual] =>
        return .wrongEntityType (← required id) (← required expected) (← required actual)
      | _ => none
    | "DegenerateGeometry" =>
      match ← body.fields? ["id", "reason"] with
      | [id, reason] => return .degenerateGeometry (← required id) (← required reason)
      | _ => none
    | "MissingParameter" =>
      match ← body.fields? ["constraint_type", "key"] with
      | [kind, key] => return .missingParameter (← required kind) (← required key)
      | _ => none
    | "Malformed" => return .malformed (← decode? body)
    | "Internal" => return .internal (← decode? body)
    | _ => none

instance : Codec Solution where
  encode s := .record
    [("constraint_id", some (encode s.constraint)),
      ("satisfied", some (encode s.satisfied)),
      ("entity_updates", some (encode s.updates)),
      ("iterations", some (encode s.iterations)),
      ("residual", some (encode s.residual)),
      ("error", s.error.map encode)]
  decode? v := do
    match ← v.fields? ["constraint_id", "satisfied", "entity_updates", "iterations", "residual", "error"] with
    | [id, satisfied, updates, iterations, residual, error] =>
      return ⟨← required id, ← required satisfied, ← required updates, ← required iterations,
        ← required residual, ← omittable error⟩
    | _ => none

instance : Codec Redundancy where
  encode r := .record
    [("constraint_id", some (encode r.constraint)),
      ("duplicates", some (encode r.duplicates)),
      ("reason", some (encode r.reason))]
  decode? v := do
    match ← v.fields? ["constraint_id", "duplicates", "reason"] with
    | [id, duplicates, reason] => return ⟨← required id, ← required duplicates, ← required reason⟩
    | _ => none

instance : Codec Report where
  encode r := .record
    [("constraint_count", some (encode r.constraintCount)),
      ("satisfied_count", some (encode r.satisfiedCount)),
      ("unsatisfied_count", some (encode r.unsatisfiedCount)),
      ("total_iterations", some (encode r.totalIterations)),
      ("max_residual", some (encode r.maxResidual)),
      ("status_message", some (encode r.status)),
      ("redundant_constraints", some (encode r.redundant))]
  decode? v := do
    match ← v.fields? ["constraint_count", "satisfied_count", "unsatisfied_count", "total_iterations",
        "max_residual", "status_message", "redundant_constraints"] with
    | [count, satisfied, unsatisfied, iterations, residual, status, redundant] =>
      return ⟨← required count, ← required satisfied, ← required unsatisfied, ← required iterations,
        ← required residual, ← required status, ← required redundant⟩
    | _ => none

instance : Codec Freedom where
  encode f := .record
    [("entity_dof", some (encode f.entities)),
      ("constrained_dof", some (encode f.constrained)),
      ("remaining", some (encode f.remaining))]
  decode? v := do
    match ← v.fields? ["entity_dof", "constrained_dof", "remaining"] with
    | [entities, constrained, remaining] =>
      return ⟨← required entities, ← required constrained, ← required remaining⟩
    | _ => none

end Drafting
