import Drafting.Number.Text

/-! Settings.

Solving and suggesting each have their settings, with a standard value for every
one. `Settings.check` finds the first setting that is out of range, in the order
in which `Setting` lists them; what is not a number is in no range. -/
namespace Drafting

/-- Which entities a distance may move. -/
inductive DistanceMode where
  /-- The second one. -/
  | moveSecond
  /-- Both, by half each. -/
  | symmetric
  deriving DecidableEq, Repr

structure SolverSettings where
  /-- A constraint with a residual below this is satisfied. -/
  tolerance : Float := 1e-6
  /-- The most corrective steps for a constraint in a pass. -/
  maxIterations : UInt32 := 100
  /-- The part of a full correction that an iterated step makes. -/
  damping : Float := 0.8
  distanceMode : DistanceMode := .moveSecond
  deriving DecidableEq

structure SuggestionSettings where
  /-- Lines within this angle are nearly parallel. -/
  parallelDegrees : Float := 15.0
  /-- Lines this close to a right angle are nearly perpendicular. -/
  perpendicularDegrees : Float := 15.0
  /-- Centers within this distance are nearly the same. -/
  concentricDistance : Float := 10.0
  /-- Radii within this difference are nearly equal. -/
  equalRadiusDelta : Float := 2.0
  deriving DecidableEq

structure Settings where
  solver : SolverSettings := {}
  suggestions : SuggestionSettings := {}
  deriving DecidableEq

/-- The settings that have a range, in the order in which they are checked. -/
inductive Setting where
  | tolerance
  | maxIterations
  | damping
  | parallelDegrees
  | perpendicularDegrees
  | concentricDistance
  | equalRadiusDelta
  deriving DecidableEq, Repr

def Setting.text : Setting → String
  | .tolerance => "tolerance"
  | .maxIterations => "max_iterations"
  | .damping => "damping_factor"
  | .parallelDegrees => "parallel_threshold_deg"
  | .perpendicularDegrees => "perpendicular_threshold_deg"
  | .concentricDistance => "concentric_distance"
  | .equalRadiusDelta => "equal_radius_delta"

/-- Why settings cannot be used. -/
inductive SettingsError where
  /-- The text is no settings document. -/
  | unreadable
  /-- This setting, with this value where it is a floating point number, is out of range. -/
  | outOfRange (setting : Setting) (value : Option Float)
  deriving DecidableEq

/-- What is asked of a setting. -/
def Setting.rule : Setting → String
  | .tolerance => "must be a positive number"
  | .maxIterations => "must be at least 1"
  | .damping => "must be in (0, 1]"
  | _ => "must be a non-negative number"

def SettingsError.message : SettingsError → String
  | .unreadable => "Invalid config JSON"
  | .outOfRange setting value =>
    "Invalid value for " ++ setting.text ++ ": " ++ setting.rule ++
      (match value with
        | some x => ", got " ++ Number.prose.text x
        | none => "")

/-- Fails with an error unless a condition holds. -/
private def demand (condition : Bool) (error : SettingsError) : Except SettingsError Unit :=
  if condition then .ok () else .error error

/-- Fails with the first setting of the solver that is out of range. -/
def SolverSettings.check (s : SolverSettings) : Except SettingsError Unit := do
  demand (s.tolerance.isFinite && 0.0 < s.tolerance) (.outOfRange .tolerance s.tolerance)
  demand (s.maxIterations != 0) (.outOfRange .maxIterations none)
  demand (0.0 < s.damping && s.damping ≤ 1.0) (.outOfRange .damping s.damping)

/-- Fails with the first threshold that is out of range. -/
def SuggestionSettings.check (s : SuggestionSettings) : Except SettingsError Unit := do
  let threshold (setting : Setting) (x : Float) : Except SettingsError Unit :=
    demand (x.isFinite && 0.0 ≤ x) (.outOfRange setting x)
  threshold .parallelDegrees s.parallelDegrees
  threshold .perpendicularDegrees s.perpendicularDegrees
  threshold .concentricDistance s.concentricDistance
  threshold .equalRadiusDelta s.equalRadiusDelta

/-- Fails with the first setting that is out of range. -/
def Settings.check (s : Settings) : Except SettingsError Unit := do
  s.solver.check
  s.suggestions.check

/-- The first demand that is not met decides. -/
private theorem demand_bind (condition : Bool) (error : SettingsError) (next : Unit → Except SettingsError Unit) :
    (demand condition error >>= next) = if condition then next () else .error error := by
  cases condition <;> rfl

theorem SolverSettings.check_eq (s : SolverSettings) :
    s.check =
      if s.tolerance.isFinite && 0.0 < s.tolerance then
        if s.maxIterations != 0 then
          if 0.0 < s.damping && s.damping ≤ 1.0 then .ok () else .error (.outOfRange .damping s.damping)
        else .error (.outOfRange .maxIterations none)
      else .error (.outOfRange .tolerance s.tolerance) := by
  rw [check, demand_bind, demand_bind]
  rfl

theorem SuggestionSettings.check_eq (s : SuggestionSettings) :
    s.check =
      if s.parallelDegrees.isFinite && 0.0 ≤ s.parallelDegrees then
        if s.perpendicularDegrees.isFinite && 0.0 ≤ s.perpendicularDegrees then
          if s.concentricDistance.isFinite && 0.0 ≤ s.concentricDistance then
            if s.equalRadiusDelta.isFinite && 0.0 ≤ s.equalRadiusDelta then .ok ()
            else .error (.outOfRange .equalRadiusDelta s.equalRadiusDelta)
          else .error (.outOfRange .concentricDistance s.concentricDistance)
        else .error (.outOfRange .perpendicularDegrees s.perpendicularDegrees)
      else .error (.outOfRange .parallelDegrees s.parallelDegrees) := by
  simp only [check, demand_bind]
  rfl

end Drafting
