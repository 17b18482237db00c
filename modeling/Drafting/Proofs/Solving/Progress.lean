import Drafting.Proofs.Number.Order
import Drafting.Proofs.Solving.Pass

/-! How an attempt gets on.

A course that does not fail is a `Journey`: it goes from one geometry to the next by
corrective steps, as long as the residual reaches the tolerance, each step is an
improvement on the one before, and steps are left. `Course.pursue` makes one step and
goes on from there with one step less, so journeys are put together from the front
(`Journey.later`). A residual that reaches the tolerance is a number, and then what is
no improvement and what is one are opposites (`Journey.decreasing`). -/
namespace Drafting

/-- A journey of `n` steps, and at most `bound`, through geometries `w 0` to `w n`. -/
structure Journey (settings : SolverSettings) (c : Constraint) (bound n : Nat) (w : Nat → Visit) : Prop where
  bounded : n ≤ bound
  measured : ∀ i ≤ n, c.residual (w i).geometry = .ok (w i).residual
  stepped : ∀ i < n, c.step settings (w i).geometry = .ok (w (i + 1)).geometry
  pressing : ∀ i < n, settings.tolerance ≤ (w i).residual
  /-- Only the last step may fail to reduce the residual. -/
  improving : ∀ i, i + 1 < n → ¬ (w i).residual ≤ (w (i + 1)).residual
  ended : ¬ settings.tolerance ≤ (w n).residual ∨ n = bound ∨ ∃ m, n = m + 1 ∧ (w m).residual ≤ (w n).residual

namespace Journey

variable {settings : SolverSettings} {c : Constraint} {bound n : Nat} {w : Nat → Visit} {now : Visit}

/-- Nobody goes anywhere. -/
theorem none (hnow : c.residual now.geometry = .ok now.residual)
    (hended : ¬ settings.tolerance ≤ now.residual ∨ 0 = bound) : Journey settings c bound 0 fun _ => now where
  bounded := Nat.zero_le _
  measured _ _ := hnow
  stepped _ hi := absurd hi (Nat.not_lt_zero _)
  pressing _ hi := absurd hi (Nat.not_lt_zero _)
  improving _ hi := absurd hi (Nat.not_lt_zero _)
  ended := hended.imp_right .inl

/-- One step that does not help. -/
theorem one {next : Visit} (hnow : c.residual now.geometry = .ok now.residual)
    (hnext : c.residual next.geometry = .ok next.residual) (hpressing : settings.tolerance ≤ now.residual)
    (hstep : c.step settings now.geometry = .ok next.geometry) (hstalled : now.residual ≤ next.residual) :
    Journey settings c (bound + 1) 1 fun | 0 => now | _ => next where
  bounded := Nat.le_add_left ..
  measured
    | 0, _ => hnow
    | _ + 1, _ => hnext
  stepped
    | 0, _ => hstep
  pressing
    | 0, _ => hpressing
  improving _ hi := absurd hi (by omega)
  ended := .inr (.inr ⟨0, rfl, hstalled⟩)

/-- A step that helps, and a journey from there. -/
theorem later (h : Journey settings c bound n w) (hnow : c.residual now.geometry = .ok now.residual)
    (hpressing : settings.tolerance ≤ now.residual) (hstep : c.step settings now.geometry = .ok (w 0).geometry)
    (himproving : ¬ now.residual ≤ (w 0).residual) :
    Journey settings c (bound + 1) (n + 1) fun | 0 => now | i + 1 => w i where
  bounded := Nat.succ_le_succ h.bounded
  measured
    | 0, _ => hnow
    | i + 1, hi => h.measured i (Nat.le_of_succ_le_succ hi)
  stepped
    | 0, _ => hstep
    | i + 1, hi => h.stepped i (Nat.lt_of_succ_lt_succ hi)
  pressing
    | 0, _ => hpressing
    | i + 1, hi => h.pressing i (Nat.lt_of_succ_lt_succ hi)
  improving
    | 0, _ => himproving
    | i + 1, hi => h.improving i (Nat.lt_of_succ_lt_succ hi)
  ended := by
    rcases h.ended with hsettled | hused | ⟨m, rfl, hstalled⟩
    · exact .inl hsettled
    · exact .inr (.inl (congrArg (· + 1) hused))
    · exact .inr (.inr ⟨m + 1, rfl, hstalled⟩)

/-- The residual goes down with each step but the last. -/
theorem decreasing (h : Journey settings c bound n w) : ∀ i, i + 1 < n → (w (i + 1)).residual < (w i).residual := by
  intro i hi
  have hnow := Number.isNaN_of_le (h.pressing i (Nat.lt_of_succ_lt hi))
  have hnext := Number.isNaN_of_le (h.pressing (i + 1) hi)
  exact (Number.not_le_iff hnow hnext).mp (h.improving i hi)

/-- No step is made exactly if the first residual does not reach the tolerance. -/
theorem eq_zero_iff (h : Journey settings c bound n w) (hbound : 0 < bound) :
    n = 0 ↔ ¬ settings.tolerance ≤ (w 0).residual := by
  constructor
  · rintro rfl
    rcases h.ended with hsettled | hused | ⟨m, hm, _⟩
    · exact hsettled
    · exact absurd hused hbound.ne
    · cases hm
  · intro hsettled
    by_contra hn
    exact hsettled (h.pressing 0 (Nat.pos_of_ne_zero hn))

end Journey

namespace Course

variable {settings : SolverSettings} {c : Constraint}

theorem steps_pursue_zero (settings : SolverSettings) (c : Constraint) (now : Visit) (earlier : List Visit) :
    (pursue settings c 0 now earlier).steps = earlier.length := by
  by_cases hpressing : settings.tolerance ≤ now.residual <;> simp [pursue, steps, hpressing]

/-- A course makes no more steps than it may, however it ends. -/
theorem pursue_steps_le (budget : Nat) (now : Visit) (earlier : List Visit) :
    (pursue settings c budget now earlier).steps ≤ earlier.length + budget := by
  fun_induction pursue settings c budget now earlier with
  | case1 now earlier => exact (steps_pursue_zero settings c now earlier).le
  | case2 budget now earlier _ e _ => exact Nat.le_add_right ..
  | case3 budget now earlier _ geometry _ e _ => exact Nat.add_le_add_left (Nat.le_add_left ..) _
  | case4 budget now earlier _ geometry _ residual _ _ => exact Nat.add_le_add_left (Nat.le_add_left ..) _
  | case5 budget now earlier _ geometry _ residual _ _ ih =>
    rw [List.length_cons] at ih
    omega
  | case6 budget now earlier _ => exact Nat.le_add_right ..

/-- A course that does not fail is a journey. -/
theorem pursue_journey (budget : Nat) {now : Visit} (earlier : List Visit)
    (hnow : c.residual now.geometry = .ok now.residual)
    (h : (pursue settings c budget now earlier).ending.error? = none) :
    ∃ n w, w 0 = now ∧ Journey settings c budget n w ∧
      (pursue settings c budget now earlier).steps = earlier.length + n ∧
      (pursue settings c budget now earlier).geometry = (w n).geometry := by
  fun_induction pursue settings c budget now earlier with
  | case1 now earlier => exact ⟨0, fun _ => now, rfl, .none hnow (.inr rfl), steps_pursue_zero settings c now earlier, rfl⟩
  | case2 => cases h
  | case3 => cases h
  | case4 budget now earlier hpressing geometry hstep residual hresidual hstalled =>
    let next : Visit := ⟨geometry, residual⟩
    exact ⟨1, fun | 0 => now | _ => next, rfl, .one hnow hresidual hpressing hstep hstalled, rfl, rfl⟩
  | case5 budget now earlier hpressing geometry hstep residual hresidual himproving ih =>
    obtain ⟨n, w, hstart, hjourney, hsteps, hgeometry⟩ := ih hresidual h
    refine ⟨n + 1, fun | 0 => now | i + 1 => w i, rfl, ?_, ?_, hgeometry⟩
    · refine hjourney.later hnow hpressing ?_ ?_
      · rw [hstart]
        exact hstep
      · rw [hstart]
        exact himproving
    · rw [hsteps, List.length_cons]
      omega
  | case6 budget now earlier hsettled => exact ⟨0, fun _ => now, rfl, .none hnow (.inl hsettled), rfl, rfl⟩

variable (settings c) (snapshot : Snapshot)

theorem of_steps_le : (of settings c snapshot).steps ≤ settings.maxIterations.toNat := by
  unfold of
  split
  · exact Nat.zero_le _
  · exact (pursue_steps_le ..).trans_eq (Nat.zero_add _)

variable {settings c snapshot}

theorem of_journey (h : (of settings c snapshot).ending.error? = none) :
    ∃ w, (w 0).geometry = snapshot ∧
      Journey settings c settings.maxIterations.toNat (of settings c snapshot).steps w ∧
      (of settings c snapshot).geometry = (w (of settings c snapshot).steps).geometry := by
  cases hresidual : c.residual snapshot with
  | error e =>
    simp only [of, hresidual] at h
    cases h
  | ok residual =>
    simp only [of, hresidual] at h ⊢
    obtain ⟨n, w, hstart, hjourney, hsteps, hgeometry⟩ := pursue_journey _ [] hresidual h
    rw [List.length_nil, Nat.zero_add] at hsteps
    exact ⟨w, by rw [hstart], by rwa [hsteps], by rwa [hsteps]⟩

end Course

/-! ### Attempts -/

/-- Checked settings leave at least one step. -/
theorem SolverSettings.maxIterations_pos {settings : SolverSettings} (h : settings.check = .ok ()) :
    0 < settings.maxIterations.toNat := by
  obtain ⟨_, _, h⟩ := bind_eq_ok.mp h
  obtain ⟨_, hmax, _⟩ := bind_eq_ok.mp h
  refine Nat.pos_of_ne_zero fun hzero => ?_
  have hnone : settings.maxIterations = 0 := UInt32.toNat_inj.mp hzero
  rw [hnone] at hmax
  cases hmax

/-- What there is to know about an attempt that has not failed: it has gone on a journey. -/
structure Attempt.Travelled (settings : SolverSettings) (start : Snapshot) (own : Attempt) (w : Nat → Visit) : Prop
    extends Journey settings own.constraint settings.maxIterations.toNat own.iterations.toNat w where
  start : (w 0).geometry = start
  arrived : own.geometry = (w own.iterations.toNat).geometry
  decreasing : ∀ i, i + 1 < own.iterations.toNat → (w (i + 1)).residual < (w i).residual
  idle : own.iterations = 0 ↔ ¬ settings.tolerance ≤ (w 0).residual
  idle_of_isNaN : (w 0).residual.isNaN = true → own.iterations = 0

namespace Constraint

variable (observer : Observer) (settings : SolverSettings) (c : Constraint) (snapshot : Snapshot)

theorem toNat_steps : (UInt32.ofNat (Course.of settings c snapshot).steps).toNat = (Course.of settings c snapshot).steps := by
  have hle := Course.of_steps_le settings c snapshot
  exact UInt32.toNat_ofNat_of_lt' (hle.trans_lt settings.maxIterations.toNat_lt)

/-- An attempt makes no more steps than it may, whether it fails or not. -/
theorem attempt_iterations_le : (c.attempt observer settings snapshot).iterations ≤ settings.maxIterations := by
  rw [UInt32.le_iff_toNat_le, attempt_eq]
  split
  · exact Nat.zero_le _
  · rw [toNat_steps]
    exact Course.of_steps_le ..
  · rw [toNat_steps]
    exact Course.of_steps_le ..

/-- An attempt without an error takes over its course. -/
theorem attempt_of_success (h : (c.attempt observer settings snapshot).error = none) :
    let own := c.attempt observer settings snapshot
    let course := Course.of settings c snapshot
    course.ending.error? = none ∧ own.iterations = .ofNat course.steps ∧ own.geometry = course.geometry := by
  revert h
  rw [attempt_eq]
  split
  · nofun
  · nofun
  · rename_i hending
    exact fun _ => ⟨hending, rfl, rfl⟩

/-- **Attempts are bounded and get on.** An attempt reports no more steps than it may make. If it does not fail, it
has gone from one geometry to the next by corrective steps, from residuals that reach the tolerance, and each but
the last step has reduced the residual; it ends where the residual does not reach the tolerance, or no step is
left, or the last step was no improvement. It makes no step exactly if the first residual does not reach the
tolerance, for example because it is not a number. -/
theorem attempt_progress (h : settings.check = .ok ()) :
    let own := c.attempt observer settings snapshot
    own.iterations ≤ settings.maxIterations ∧
      (own.error = none → ∃ w, own.Travelled settings snapshot w) := by
  refine ⟨c.attempt_iterations_le observer settings snapshot, fun herror => ?_⟩
  obtain ⟨hending, hiterations, hgeometry⟩ := c.attempt_of_success observer settings snapshot herror
  obtain ⟨w, hstart, hjourney, harrived⟩ := Course.of_journey hending
  rw [← toNat_steps, ← hiterations] at hjourney harrived
  have hidle : (c.attempt observer settings snapshot).iterations = 0 ↔ ¬ settings.tolerance ≤ (w 0).residual := by
    rw [← UInt32.toNat_inj]
    exact hjourney.eq_zero_iff (settings.maxIterations_pos h)
  exact ⟨w, {
    toJourney := by rwa [attempt_constraint]
    start := hstart
    arrived := hgeometry.trans harrived
    decreasing := hjourney.decreasing
    idle := hidle
    idle_of_isNaN := fun hnan => hidle.mpr fun hpressing => by
      rw [Number.isNaN_of_le hpressing] at hnan
      cases hnan }⟩

/-- Two points are too close. Two steps bring them near enough to the distance, each leaving a fifth of the way. -/
theorem attempt_progress_distance :
    let settings : SolverSettings := { tolerance := 0.1 }
    let points : Snapshot := .ofList [(⟨⟨1⟩⟩, .point ⟨0.0, 0.0⟩), (⟨⟨2⟩⟩, .point ⟨1.0, 0.0⟩)]
    let apart : Constraint :=
      { Constraint.bare 3 .distance [⟨⟨1⟩⟩, ⟨⟨2⟩⟩] with parameters := .ofList [(.distance, .number 2.0)] }
    let own := apart.attempt .silent settings points
    settings.check = .ok () ∧ own.iterations = 2 ∧ ∃ w, own.Travelled settings points w := by
  intro settings points apart own
  have hcheck : settings.check = .ok () := by decide +kernel
  have herror : own.error = none := by decide +kernel
  exact ⟨hcheck, by decide +kernel, (attempt_progress .silent settings apart points hcheck).2 herror⟩

end Constraint

end Drafting
