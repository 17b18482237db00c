import Drafting.Proofs.Solving.Lookup
import Drafting.Session.Basic
import Mathlib.Logic.Basic

/-! Settings in range.

Each of the seven settings that can be wrong is asked for its own range and for
nothing else (`Settings.Keeps`), so a check is a walk along a list of settings that
ends at the first one that is out of range (`Setting.walk`). The solver's settings
stand first on the list of all of them. So checking the parts one after the other is
checking everything in order (`Settings.check_eq_walk`), and a session, which checks
the parts by itself, refuses the same settings for the same reason
(`Session.ofSettings_eq`). -/
namespace Drafting

/-- The settings of the solver in the order in which they are checked. -/
def Setting.ofSolver : List Setting := [.tolerance, .maxIterations, .damping]

/-- The thresholds for suggestions in the order in which they are checked. -/
def Setting.ofSuggestions : List Setting :=
  [.parallelDegrees, .perpendicularDegrees, .concentricDistance, .equalRadiusDelta]

/-- All settings in the order in which they are checked. -/
def Setting.all : List Setting := ofSolver ++ ofSuggestions

theorem Setting.mem_all (setting : Setting) : setting ∈ all := by cases setting <;> decide

/-! ### Ranges -/

/-- What a threshold may be. -/
def IsThreshold (x : Float) : Prop := x.isFinite = true ∧ 0.0 ≤ x

instance (x : Float) : Decidable (IsThreshold x) := inferInstanceAs (Decidable (_ ∧ _))

namespace Settings

/-- A setting is in its range. -/
def Keeps (s : Settings) : Setting → Prop
  | .tolerance => s.solver.tolerance.isFinite = true ∧ 0.0 < s.solver.tolerance
  | .maxIterations => 1 ≤ s.solver.maxIterations
  | .damping => 0.0 < s.solver.damping ∧ s.solver.damping ≤ 1.0
  | .parallelDegrees => IsThreshold s.suggestions.parallelDegrees
  | .perpendicularDegrees => IsThreshold s.suggestions.perpendicularDegrees
  | .concentricDistance => IsThreshold s.suggestions.concentricDistance
  | .equalRadiusDelta => IsThreshold s.suggestions.equalRadiusDelta

instance (s : Settings) : DecidablePred s.Keeps
  | .tolerance => inferInstanceAs (Decidable (_ ∧ 0.0 < s.solver.tolerance))
  | .maxIterations => inferInstanceAs (Decidable (1 ≤ s.solver.maxIterations))
  | .damping => inferInstanceAs (Decidable (0.0 < s.solver.damping ∧ s.solver.damping ≤ 1.0))
  | .parallelDegrees => inferInstanceAs (Decidable (IsThreshold s.suggestions.parallelDegrees))
  | .perpendicularDegrees => inferInstanceAs (Decidable (IsThreshold s.suggestions.perpendicularDegrees))
  | .concentricDistance => inferInstanceAs (Decidable (IsThreshold s.suggestions.concentricDistance))
  | .equalRadiusDelta => inferInstanceAs (Decidable (IsThreshold s.suggestions.equalRadiusDelta))

/-- The value of a setting that is a floating point number. -/
def value? (s : Settings) : Setting → Option Float
  | .tolerance => s.solver.tolerance
  | .maxIterations => none
  | .damping => s.solver.damping
  | .parallelDegrees => s.suggestions.parallelDegrees
  | .perpendicularDegrees => s.suggestions.perpendicularDegrees
  | .concentricDistance => s.suggestions.concentricDistance
  | .equalRadiusDelta => s.suggestions.equalRadiusDelta

/-- Every setting is in its range. -/
def InRange (s : Settings) : Prop := ∀ setting, s.Keeps setting

/-- The setting is out of range, and those ahead of it on the list are not. -/
def FirstMisfit (s : Settings) (setting : Setting) : Prop :=
  ∃ ahead behind, Setting.all = ahead ++ setting :: behind ∧ (∀ earlier ∈ ahead, s.Keeps earlier) ∧ ¬ s.Keeps setting

end Settings

/-! ### Checks -/

/-- Fails with the first setting on a list that is out of range. -/
def Setting.walk (s : Settings) : List Setting → Except SettingsError Unit
  | [] => .ok ()
  | setting :: rest => if s.Keeps setting then walk s rest else .error (.outOfRange setting (s.value? setting))

namespace Settings

variable {s : Settings}

theorem walk_append (l l' : List Setting) :
    Setting.walk s (l ++ l') = Setting.walk s l >>= fun _ => Setting.walk s l' := by
  induction l with
  | nil => rfl
  | cons setting rest ih =>
    rw [List.cons_append, Setting.walk, Setting.walk, ih]
    split <;> rfl

theorem walk_eq_ok {l : List Setting} : Setting.walk s l = .ok () ↔ ∀ setting ∈ l, s.Keeps setting := by
  induction l with
  | nil => exact iff_of_true rfl (List.forall_mem_nil _)
  | cons setting rest ih =>
    rw [Setting.walk, List.forall_mem_cons, ← ih]
    split <;> simp_all

theorem walk_eq_error {l : List Setting} {e : SettingsError} :
    Setting.walk s l = .error e ↔ ∃ ahead setting behind, l = ahead ++ setting :: behind ∧
      (∀ earlier ∈ ahead, s.Keeps earlier) ∧ ¬ s.Keeps setting ∧ e = .outOfRange setting (s.value? setting) := by
  induction l with
  | nil => simp [Setting.walk]
  | cons first rest ih =>
    rw [Setting.walk]
    split
    · rename_i hfirst
      rw [ih]
      constructor
      · rintro ⟨ahead, setting, behind, rfl, hahead, hsetting⟩
        exact ⟨first :: ahead, setting, behind, rfl, List.forall_mem_cons.mpr ⟨hfirst, hahead⟩, hsetting⟩
      · rintro ⟨_ | ⟨second, ahead⟩, setting, behind, hl, hahead, hsetting, he⟩
        · cases hl
          exact absurd hfirst hsetting
        · cases hl
          exact ⟨ahead, setting, behind, rfl, (List.forall_mem_cons.mp hahead).2, hsetting, he⟩
    · rename_i hfirst
      constructor
      · intro he
        exact ⟨[], first, rest, rfl, List.forall_mem_nil _, hfirst, (Except.error.inj he).symm⟩
      · rintro ⟨_ | ⟨second, ahead⟩, setting, behind, hl, hahead, _, rfl⟩
        · cases hl
          rfl
        · cases hl
          exact absurd (List.forall_mem_cons.mp hahead).1 hfirst

theorem solver_check_eq_walk (s : Settings) : s.solver.check = Setting.walk s Setting.ofSolver := by
  have htolerance : (s.solver.tolerance.isFinite && 0.0 < s.solver.tolerance) = true ↔ s.Keeps .tolerance := by
    simp [Keeps]
  have hcount : (s.solver.maxIterations != 0) = true ↔ s.Keeps .maxIterations := by
    rw [bne_iff_ne, ne_eq, ← UInt32.toNat_inj, Keeps, UInt32.le_iff_toNat_le]
    exact Nat.pos_iff_ne_zero.symm
  have hdamping : (0.0 < s.solver.damping && s.solver.damping ≤ 1.0) = true ↔ s.Keeps .damping := by simp [Keeps]
  rw [SolverSettings.check_eq]
  exact if_congr htolerance (if_congr hcount (if_congr hdamping rfl rfl) rfl) rfl

theorem suggestions_check_eq_walk (s : Settings) : s.suggestions.check = Setting.walk s Setting.ofSuggestions := by
  have hthreshold (x : Float) : (x.isFinite && 0.0 ≤ x) = true ↔ IsThreshold x := by simp [IsThreshold]
  rw [SuggestionSettings.check_eq]
  exact if_congr (hthreshold _)
    (if_congr (hthreshold _) (if_congr (hthreshold _) (if_congr (hthreshold _) rfl rfl) rfl) rfl) rfl

theorem check_eq_walk (s : Settings) : s.check = Setting.walk s Setting.all := by
  rw [check, solver_check_eq_walk, suggestions_check_eq_walk, Setting.all, walk_append]

/-- Settings pass exactly if each of them is in its range. -/
theorem check_eq_ok : s.check = .ok () ↔ s.InRange := by
  rw [check_eq_walk, walk_eq_ok]
  exact ⟨fun h setting => h setting setting.mem_all, fun h setting _ => h setting⟩

/-- Settings are refused for the first one that is out of range. -/
theorem check_eq_error {e : SettingsError} :
    s.check = .error e ↔ ∃ setting, s.FirstMisfit setting ∧ e = .outOfRange setting (s.value? setting) := by
  rw [check_eq_walk, walk_eq_error]
  constructor
  · rintro ⟨ahead, setting, behind, hall, hahead, hsetting, he⟩
    exact ⟨setting, ⟨ahead, behind, hall, hahead, hsetting⟩, he⟩
  · rintro ⟨setting, ⟨ahead, behind, hall, hahead, hsetting⟩, he⟩
    exact ⟨ahead, setting, behind, hall, hahead, hsetting, he⟩

end Settings

/-! ### Solvers and sessions -/

/-- The tolerance of checked settings is positive. -/
theorem SolverSettings.tolerance_pos {settings : SolverSettings} (h : settings.check = .ok ()) :
    0.0 < settings.tolerance := by
  rw [Settings.solver_check_eq_walk ⟨settings, {}⟩, Settings.walk_eq_ok] at h
  exact (h .tolerance (by decide)).2

/-- A solver takes the settings that pass the check, and gives the reason of the check otherwise. -/
theorem Solver.ofSettings_eq (settings : SolverSettings) :
    ofSettings settings = settings.check.map fun _ => ⟨settings⟩ := by
  rw [ofSettings]
  cases settings.check <;> rfl

/-- A session takes the settings that pass the check, and gives the reason of the check otherwise. -/
theorem Session.ofSettings_eq (settings : Settings) (series : Series) (hasStore : Bool) :
    ofSettings settings series hasStore =
      settings.check.map fun _ =>
        { solver := ⟨settings.solver⟩, suggestions := settings.suggestions, series, hasStore } := by
  rw [ofSettings, Solver.ofSettings, Settings.check]
  cases settings.solver.check with
  | error e => rfl
  | ok _ => cases settings.suggestions.check <;> rfl

end Drafting
