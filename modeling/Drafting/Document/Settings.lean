import Drafting.Document.Basic

/-! Documents: settings.

Every setting and every section may be left out and then has its standard value.
`Settings.ofText` reads a document and checks it, so what it returns is in range. -/
namespace Drafting

open Json

instance : Codec SolverSettings where
  encode s := .record
    [("tolerance", some (encode s.tolerance)),
      ("max_iterations", some (encode s.maxIterations)),
      ("damping_factor", some (encode s.damping)),
      ("distance_mode", some (encode s.distanceMode))]
  decode? v := do
    let standard : SolverSettings := {}
    match ← v.fields? ["tolerance", "max_iterations", "damping_factor", "distance_mode"] with
    | [tolerance, maxIterations, damping, distanceMode] =>
      return { tolerance := ← defaulted standard.tolerance tolerance
               maxIterations := ← defaulted standard.maxIterations maxIterations
               damping := ← defaulted standard.damping damping
               distanceMode := ← defaulted standard.distanceMode distanceMode }
    | _ => none

instance : Codec SuggestionSettings where
  encode s := .record
    [("parallel_threshold_deg", some (encode s.parallelDegrees)),
      ("perpendicular_threshold_deg", some (encode s.perpendicularDegrees)),
      ("concentric_distance", some (encode s.concentricDistance)),
      ("equal_radius_delta", some (encode s.equalRadiusDelta))]
  decode? v := do
    let standard : SuggestionSettings := {}
    match ← v.fields? ["parallel_threshold_deg", "perpendicular_threshold_deg", "concentric_distance",
        "equal_radius_delta"] with
    | [parallel, perpendicular, concentric, equalRadius] =>
      return { parallelDegrees := ← defaulted standard.parallelDegrees parallel
               perpendicularDegrees := ← defaulted standard.perpendicularDegrees perpendicular
               concentricDistance := ← defaulted standard.concentricDistance concentric
               equalRadiusDelta := ← defaulted standard.equalRadiusDelta equalRadius }
    | _ => none

instance : Codec Settings where
  encode s := .record [("solver", some (encode s.solver)), ("auto_constraints", some (encode s.suggestions))]
  decode? v := do
    match ← v.fields? ["solver", "auto_constraints"] with
    | [solver, suggestions] => return ⟨← defaulted {} solver, ← defaulted {} suggestions⟩
    | _ => none

/-- Reads a settings document and checks it. -/
def Settings.ofText (text : String) : Except SettingsError Settings := do
  match (ofText? text).bind decode? with
  | none => throw .unreadable
  | some settings =>
    settings.check
    return settings

end Drafting
