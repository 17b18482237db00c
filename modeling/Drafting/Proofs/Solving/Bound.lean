import Drafting.Proofs.Solving.Blame
import Drafting.Proofs.Solving.Progress

/-! What the bound on the steps does.

The bound is read in one place: it is the budget of a course. With a greater budget a
course is the same, unless the smaller one is used up; then it goes on from there
(`Course.lockstep`). So a bound that no attempt of a pass uses up has no effect on any
of them: each finds what it found, the next one too, and the pass is the same
(`run_bounded`). An interrupted attempt reports no steps, however many it has made, so
what it reports does not say that the bound was not used up. -/
namespace Drafting

/-- The same settings with another bound. -/
def SolverSettings.bounded (settings : SolverSettings) (m : UInt32) : SolverSettings := { settings with maxIterations := m }

/-- The geometries that a course visits, from the first to the last. -/
def Course.path (course : Course) : List Snapshot :=
  course.visits.reverse.map Visit.geometry ++
    match course.ending with
    | .unmeasured _ => [course.geometry]
    | _ => []

/-- The observer has interrupted no attempt. -/
def Pass.Uninterrupted (observer : Observer) (pass : Pass) : Prop :=
  ∀ solution ∈ pass.solutions, ¬ observer.Interrupted solution.error

/-- Who refuses nothing interrupts nothing. -/
theorem Pass.uninterrupted_of_quiet {observer : Observer} (h : ∀ event, observer event = none) (pass : Pass) :
    pass.Uninterrupted observer := by
  rintro solution _ ⟨event, reason, hrefused, _⟩
  rw [h event] at hrefused
  cases hrefused

/-! ### What the bound is not for -/

section Steps
variable (settings : SolverSettings) (m : UInt32) (c : Constraint)

theorem Relation.correction_bounded (r : Relation) : r.correction (settings.bounded m) = r.correction settings := by
  cases r <;> rfl

theorem Constraint.step_bounded (snapshot : Snapshot) : c.step (settings.bounded m) snapshot = c.step settings snapshot := by
  unfold step correction
  simp only [Relation.correction_bounded]

theorem Attempt.verdict_bounded (a : Attempt) (final : Snapshot) :
    a.verdict (settings.bounded m) final = a.verdict settings final := rfl

namespace Course

theorem pursue_bounded (budget : Nat) (now : Visit) (earlier : List Visit) :
    pursue (settings.bounded m) c budget now earlier = pursue settings c budget now earlier := by
  induction budget generalizing now earlier with
  | zero => rfl
  | succ budget ih =>
    simp only [pursue, Constraint.step_bounded, ih]
    rfl

/-- The bound is the budget. -/
theorem of_bounded (snapshot : Snapshot) :
    of (settings.bounded m) c snapshot =
      match c.residual snapshot with
      | .error e => ⟨[], .unmeasured e, snapshot⟩
      | .ok residual => pursue settings c m.toNat ⟨snapshot, residual⟩ [] := by
  simp only [of, pursue_bounded]
  rfl

end Course

end Steps

/-! ### Two courses in lockstep -/

namespace Course

/-- The shorter of two courses is the same as the longer, or it is cut off when it has made all the steps it may. -/
inductive Lockstep (bound : Nat) : (short long : Course) → Prop where
  | same (course : Course) : Lockstep bound course course
  | cut {short long : Course} (hused : short.steps = bound) (hsteps : bound ≤ long.steps)
    (hpath : short.path = long.path.take (bound + 1)) : Lockstep bound short long

variable {settings : SolverSettings} {c : Constraint}

theorem Lockstep.eq_of_unused {bound : Nat} {short long : Course} (h : Lockstep bound short long)
    (hunused : short.steps < bound) : long = short := by
  cases h with
  | same => rfl
  | cut hused _ _ => exact absurd hused hunused.ne

theorem Lockstep.steps_eq {bound : Nat} {short long : Course} (h : Lockstep bound short long) (hbound : short.steps ≤ bound) :
    short.steps = min bound long.steps := by
  cases h with
  | same => exact (Nat.min_eq_right hbound).symm
  | cut hused hsteps _ => rw [hused, Nat.min_eq_left hsteps]

theorem Lockstep.path_eq {bound : Nat} {short long : Course} (h : Lockstep bound short long)
    (hlength : short.path.length = short.steps + 1) : short.path = long.path.take (short.steps + 1) := by
  cases h with
  | same => rw [← hlength, List.take_length]
  | cut hused _ hpath => rw [hused, hpath]

/-- A course that goes on from a visit has been there, and where it was before. -/
theorem suffix_visits_pursue (budget : Nat) (now : Visit) (earlier : List Visit) :
    now :: earlier <:+ (pursue settings c budget now earlier).visits := by
  fun_induction pursue settings c budget now earlier with
  | case4 budget now earlier _ geometry _ residual _ _ => exact List.suffix_cons ..
  | case5 budget now earlier _ geometry _ residual _ _ ih => exact (List.suffix_cons ..).trans ih
  | _ => exact List.suffix_rfl

/-- A course visits one geometry more than it makes steps. -/
theorem length_path_pursue (budget : Nat) (now : Visit) (earlier : List Visit) :
    (pursue settings c budget now earlier).path.length = (pursue settings c budget now earlier).steps + 1 := by
  have hvisits := (suffix_visits_pursue budget now earlier : _ <:+ (pursue settings c budget now earlier).visits).length_le
  rw [List.length_cons] at hvisits
  rw [path, steps, List.length_append, List.length_map, List.length_reverse]
  cases (pursue settings c budget now earlier).ending <;> simp <;> omega

theorem prefix_path_pursue (budget : Nat) (now : Visit) (earlier : List Visit) :
    (now :: earlier).reverse.map Visit.geometry <+: (pursue settings c budget now earlier).path :=
  ((List.reverse_prefix.mpr (suffix_visits_pursue budget now earlier)).map _).trans (List.prefix_append ..)

theorem path_pursue_zero (now : Visit) (earlier : List Visit) :
    (pursue settings c 0 now earlier).path = (now :: earlier).reverse.map Visit.geometry := by
  by_cases hpressing : settings.tolerance ≤ now.residual <;> simp [pursue, path, hpressing]

theorem pursue_lockstep {budget budget' : Nat} (h : budget ≤ budget') (now : Visit) (earlier : List Visit) :
    Lockstep (earlier.length + budget) (pursue settings c budget now earlier) (pursue settings c budget' now earlier) := by
  induction budget generalizing budget' now earlier with
  | zero =>
    have hprefix : _ <+: (pursue settings c budget' now earlier).path := prefix_path_pursue budget' now earlier
    have hlength : ((now :: earlier).reverse.map Visit.geometry).length = earlier.length + 1 := by simp
    refine .cut (steps_pursue_zero settings c now earlier) ?_ ?_
    · have hle := hprefix.length_le
      rw [hlength, length_path_pursue] at hle
      exact Nat.le_of_succ_le_succ hle
    · rw [path_pursue_zero, ← hlength]
      exact List.prefix_iff_eq_take.mp hprefix
  | succ budget ih =>
    obtain ⟨rest, rfl⟩ : ∃ rest, budget' = rest + 1 := ⟨budget' - 1, by omega⟩
    unfold pursue
    split
    · split
      · exact .same _
      · rename_i geometry _
        split
        · exact .same _
        · rename_i residual _
          split
          · exact .same _
          · have hlater := ih (Nat.le_of_succ_le_succ h) ⟨geometry, residual⟩ (now :: earlier)
            rwa [List.length_cons, Nat.add_right_comm] at hlater
    · exact .same _

theorem length_path_of (settings : SolverSettings) (c : Constraint) (snapshot : Snapshot) :
    (of settings c snapshot).path.length = (of settings c snapshot).steps + 1 := by
  unfold of
  split
  · rfl
  · exact length_path_pursue ..

theorem lockstep {m m' : UInt32} (h : m ≤ m') (settings : SolverSettings) (c : Constraint) (snapshot : Snapshot) :
    Lockstep m.toNat (of (settings.bounded m) c snapshot) (of (settings.bounded m') c snapshot) := by
  rw [of_bounded, of_bounded]
  cases c.residual snapshot with
  | error e => exact .same _
  | ok residual =>
    have hpursue : Lockstep (0 + m.toNat) (pursue settings c m.toNat ⟨snapshot, residual⟩ [])
        (pursue settings c m'.toNat ⟨snapshot, residual⟩ []) :=
      pursue_lockstep (UInt32.le_iff_toNat_le.mp h) ⟨snapshot, residual⟩ []
    rwa [Nat.zero_add] at hpursue

end Course

/-! ### Turns and passes -/

section Turns
variable {observer : Observer} {settings : SolverSettings} {c : Constraint} {snapshot : Snapshot} {m m' : UInt32}

/-- A turn that is not interrupted reports the steps that it has made. -/
theorem Constraint.iterations_of_uninterrupted
    (h : ¬ observer.Interrupted (c.attempt observer settings snapshot).error) :
    (c.attempt observer settings snapshot).iterations.toNat = (Course.of settings c snapshot).steps := by
  rw [← toNat_steps]
  revert h
  rw [attempt_eq]
  split
  · rename_i heard reason hheard
    obtain ⟨event, _, hrefusal⟩ := Observer.refused_of_hear (congrArg Prod.snd hheard)
    exact fun h => absurd ⟨event, reason, hrefusal, rfl⟩ h
  · exact fun _ => rfl
  · exact fun _ => rfl

/-- Settings matter to a turn by the course only. -/
theorem Constraint.attempt_of_course {settings' : SolverSettings}
    (h : Course.of settings' c snapshot = Course.of settings c snapshot) :
    c.attempt observer settings' snapshot = c.attempt observer settings snapshot := by
  rw [attempt, attempt, h]

/-- A bound that a turn does not use up may as well be greater. -/
theorem Constraint.attempt_bounded (hm : m ≤ m')
    (h : ¬ observer.Interrupted (c.attempt observer (settings.bounded m) snapshot).error)
    (hunused : (c.attempt observer (settings.bounded m) snapshot).iterations < m) :
    c.attempt observer (settings.bounded m') snapshot = c.attempt observer (settings.bounded m) snapshot := by
  have hsteps := iterations_of_uninterrupted h
  rw [UInt32.lt_iff_toNat_lt, hsteps] at hunused
  exact attempt_of_course ((Course.lockstep hm settings c snapshot).eq_of_unused hunused)

/-- Each turn finds what it found with the smaller bound, because those ahead of it leave the same. -/
theorem attempts_bounded (hm : m ≤ m') {l : List Constraint} {snapshot : Snapshot}
    (h : ∀ a ∈ (attempts observer (settings.bounded m) l snapshot).1,
      ¬ observer.Interrupted a.error ∧ a.iterations < m) :
    attempts observer (settings.bounded m') l snapshot = attempts observer (settings.bounded m) l snapshot := by
  induction l generalizing snapshot with
  | nil => rfl
  | cons c rest ih =>
    obtain ⟨⟨huninterrupted, hunused⟩, hrest⟩ := List.forall_mem_cons.mp h
    simp only [attempts, Constraint.attempt_bounded hm huninterrupted hunused, ih hrest]

end Turns

namespace Solver

variable (settings : SolverSettings) (observer : Observer) {m m' : UInt32} {l : List Constraint} {snapshot : Snapshot}

/-- A pass that does not use up its bound is the same with a greater one. -/
theorem run_eq_of_unused (hm : m ≤ m') (h : (Solver.run ⟨settings.bounded m⟩ observer l snapshot).Uninterrupted observer)
    (hunused : ∀ solution ∈ (Solver.run ⟨settings.bounded m⟩ observer l snapshot).solutions, solution.iterations < m) :
    Solver.run ⟨settings.bounded m'⟩ observer l snapshot = Solver.run ⟨settings.bounded m⟩ observer l snapshot := by
  have hturns : attempts observer (settings.bounded m') (solveOrder l) snapshot =
      attempts observer (settings.bounded m) (solveOrder l) snapshot := by
    refine attempts_bounded hm fun a ha => ⟨fun hinterrupted => ?_, ?_⟩
    · exact h _ (List.mem_map_of_mem ha) (Attempt.verdict_interrupted hinterrupted ..)
    · rw [← Attempt.verdict_iterations]
      exact hunused _ (List.mem_map_of_mem ha)
  simp only [run, hturns, Attempt.verdict_bounded]

/-- Of a single constraint, a pass reports the steps of its course. -/
theorem run_single {c : Constraint} (hsingle : l.filter (·.active) = [c])
    (h : (Solver.run ⟨settings⟩ observer l snapshot).Uninterrupted observer) :
    ∃ solution, (Solver.run ⟨settings⟩ observer l snapshot).solutions = [solution] ∧
      solution.iterations.toNat = (Course.of settings c snapshot).steps := by
  let own := c.attempt observer settings snapshot
  have horder : solveOrder l = [c] := by rw [solveOrder, hsingle]; rfl
  have hsolutions : (Solver.run ⟨settings⟩ observer l snapshot).solutions = [own.verdict settings own.geometry] := by
    rw [run, horder]
    rfl
  refine ⟨_, hsolutions, ?_⟩
  rw [Attempt.verdict_iterations]
  refine Constraint.iterations_of_uninterrupted fun hinterrupted => ?_
  exact h _ (hsolutions ▸ List.mem_cons_self) (Attempt.verdict_interrupted hinterrupted settings own.geometry)

/-- **A bound that is not hit does not matter.** If no attempt of a pass with the bound `m` has used it up, the pass
with a greater bound is the same. And of a single active constraint, the pass with `m` makes the steps that the pass
with the greater bound makes, up to `m` of them, through the same geometries. -/
theorem run_bounded (hm : m ≤ m') (l : List Constraint) (snapshot : Snapshot) :
    let short := Solver.run ⟨settings.bounded m⟩ observer l snapshot
    let long := Solver.run ⟨settings.bounded m'⟩ observer l snapshot
    (short.Uninterrupted observer → (∀ solution ∈ short.solutions, solution.iterations < m) → long = short) ∧
    ∀ c, l.filter (·.active) = [c] → short.Uninterrupted observer → long.Uninterrupted observer →
      ∃ own other, short.solutions = [own] ∧ long.solutions = [other] ∧
        own.iterations.toNat = min m.toNat other.iterations.toNat ∧
        (Course.of (settings.bounded m) c snapshot).path =
          (Course.of (settings.bounded m') c snapshot).path.take (own.iterations.toNat + 1) := by
  intro short long
  refine ⟨run_eq_of_unused settings observer hm, fun c hsingle hshort hlong => ?_⟩
  obtain ⟨own, hown, hsteps⟩ := run_single (settings.bounded m) observer hsingle hshort
  obtain ⟨other, hother, hsteps'⟩ := run_single (settings.bounded m') observer hsingle hlong
  have hlockstep := Course.lockstep hm settings c snapshot
  have hbound : (Course.of (settings.bounded m) c snapshot).steps ≤ m.toNat :=
    Course.of_steps_le (settings.bounded m) c snapshot
  refine ⟨own, other, hown, hother, ?_, ?_⟩
  · rw [hsteps, hsteps', hlockstep.steps_eq hbound]
  · rw [hsteps]
    exact hlockstep.path_eq (Course.length_path_of ..)

/-- Two points are brought near enough to a distance in two steps. With at most three the pass is the one with at
most a hundred, and with at most one it makes the first of the two. -/
theorem run_bounded_distance :
    let settings : SolverSettings := { tolerance := 0.1 }
    let points : Snapshot := .ofList [(⟨⟨1⟩⟩, .point ⟨0.0, 0.0⟩), (⟨⟨2⟩⟩, .point ⟨1.0, 0.0⟩)]
    let apart : Constraint :=
      { Constraint.bare 3 .distance [⟨⟨1⟩⟩, ⟨⟨2⟩⟩] with parameters := .ofList [(.distance, .number 2.0)] }
    let pass (m : UInt32) : Pass := Solver.run ⟨settings.bounded m⟩ .silent [apart] points
    pass 100 = pass 3 ∧
      ∃ own other, (pass 1).solutions = [own] ∧ (pass 100).solutions = [other] ∧ other.iterations = 2 ∧
        own.iterations.toNat = min 1 other.iterations.toNat := by
  intro settings points apart pass
  have hquiet (m : UInt32) : (pass m).Uninterrupted .silent := (pass m).uninterrupted_of_quiet fun _ => rfl
  have hunused : ∀ solution ∈ (pass 3).solutions, solution.iterations < 3 := by decide +kernel
  have hthree := run_bounded settings .silent (by decide : (3 : UInt32) ≤ 100) [apart] points
  have hone := run_bounded settings .silent (by decide : (1 : UInt32) ≤ 100) [apart] points
  obtain ⟨own, other, hown, hother, hsteps, _⟩ := hone.2 apart rfl (hquiet 1) (hquiet 100)
  have htwo : (pass 100).solutions.map (·.iterations) = [2] := by decide +kernel
  rw [hother] at htwo
  exact ⟨hthree.1 (hquiet 3) hunused, own, other, hown, hother, List.singleton_inj.mp htwo, hsteps⟩

end Solver

end Drafting
