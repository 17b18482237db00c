import Drafting.Proofs.Session.Copy
import Drafting.Proofs.Solving.Rest

/-! Solving a solved drawing.

A session notes the verdicts of a pass on its constraints, which changes nothing
that a pass looks at. So once everything is satisfied, solving again finds every
constraint to hold; and because the verdicts are noted already, there is nothing
new to note. All that is left of the second solve is that the listeners are called
(`Session.solve_again`). -/
namespace Drafting

/-- The listener that an effect calls, with what it is given. -/
def Effect.call? : Effect → Option (ListenerId × List Constraint)
  | .notified listener constraints => some (listener, constraints)
  | _ => none

/-- The calls of listeners among effects, in order. -/
def calls (effects : List Effect) : List (ListenerId × List Constraint) := effects.filterMap Effect.call?

@[simp] theorem calls_logged (event : Event) (rest : List Effect) : calls (.logged event :: rest) = calls rest := rfl

@[simp] theorem calls_append (a b : List Effect) : calls (a ++ b) = calls a ++ calls b := List.filterMap_append

@[simp] theorem calls_log (log : List Event) : calls (log.map .logged) = [] := by
  induction log with
  | nil => rfl
  | cons event rest ih => exact ih

namespace Session

/-- Every listener is called once, in order of registration. -/
@[simp] theorem calls_notify (s : Session) : calls s.notify = s.listeners.map fun l => (l.id, s.constraints) := by
  unfold notify
  induction s.listeners with
  | nil => rfl
  | cons l rest ih =>
    rw [List.flatMap_cons, calls_append, ih]
    cases l.react s.constraints <;> rfl

/-! ### Noting verdicts -/

section Verdicts
variable {now : Timestamp} {solutions : List Solution} {c : Constraint}

/-- What is noted on a constraint is no part of what it asks. -/
theorem judged_eq (now : Timestamp) (solutions : List Solution) (c : Constraint) :
    ∃ satisfied metadata, judged now solutions c = { c with satisfied, metadata } := by
  unfold judged
  split
  · split
    · exact ⟨_, _, rfl⟩
    · exact ⟨_, _, rfl⟩
  · exact ⟨_, _, rfl⟩

@[simp] theorem id_judged : (judged now solutions c).id = c.id := by
  obtain ⟨_, _, h⟩ := judged_eq now solutions c
  rw [h]

@[simp] theorem active_judged : (judged now solutions c).active = c.active := by
  obtain ⟨_, _, h⟩ := judged_eq now solutions c
  rw [h]

theorem holds_judged {settings : SolverSettings} {snapshot : Snapshot} :
    (judged now solutions c).Holds settings snapshot ↔ c.Holds settings snapshot := by
  obtain ⟨_, _, h⟩ := judged_eq now solutions c
  rw [h]
  rfl

variable (h : ∀ solution ∈ solutions, solution.satisfied = true)
include h

theorem satisfied_judged (hc : c.id ∈ solutions.map (·.constraint)) : (judged now solutions c).satisfied = true := by
  unfold judged
  split
  · rename_i solution hfound
    have hsatisfied := h solution (List.mem_reverse.mp (List.mem_of_find?_eq_some hfound))
    split
    · rename_i hsame
      exact hsame.trans hsatisfied
    · exact hsatisfied
  · rename_i hnone
    obtain ⟨solution, hmem, hid⟩ := List.mem_map.mp hc
    simpa [hid] using List.find?_eq_none.mp hnone solution (List.mem_reverse.mpr hmem)

/-- A verdict that is noted already is not noted again. -/
theorem judged_of_satisfied (hc : c.id ∈ solutions.map (·.constraint) → c.satisfied = true) :
    judged now solutions c = c := by
  unfold judged
  split
  · rename_i solution hfound
    have hmem := List.mem_reverse.mp (List.mem_of_find?_eq_some hfound)
    have hid : solution.constraint = c.id := by simpa using List.find?_some hfound
    rw [if_pos]
    rw [h solution hmem, hc (hid ▸ List.mem_map_of_mem hmem)]
  · rfl

end Verdicts

/-! ### Solving again -/

/-- If the pass changes nothing, listeners are called right after its log. -/
theorem effects_solve (s : Session) (observer : Observer) (now : Timestamp)
    (h : (Snapshot.changes s.geometry (s.solver.run observer s.constraints s.geometry).geometry).isEmpty = true) :
    (s.solve observer now).effects =
      (s.solver.run observer s.constraints s.geometry).log.map .logged ++ (s.solve observer now).session.notify := by
  simp only [solve, if_pos h, List.append_nil]

section Again
variable {s : Session} {first : Observer} {now : Timestamp}
  (h : ∀ solution ∈ (s.solve first now).answer, solution.satisfied = true)
include h

/-- The next pass of the session finds nothing to do. -/
theorem atRest_solve {later : Observer} (hhears : later.Hears) :
    let settled := (s.solve first now).session
    (settled.solver.run later settled.constraints settled.geometry).AtRest settled.constraints settled.geometry := by
  intro settled
  refine settled.solver.run_of_holds hhears fun c hc => ?_
  obtain ⟨hmem, hactive⟩ := mem_solveOrder.mp hc
  obtain ⟨d, hd, rfl⟩ := List.mem_map.mp hmem
  rw [active_judged] at hactive
  exact holds_judged.mpr (s.solver.holds_of_satisfied h (mem_solveOrder.mpr ⟨hd, hactive⟩))

/-- What has a solution in the next pass has been noted as satisfied. -/
theorem satisfied_of_solved {later : Observer} {snapshot : Snapshot} {c : Constraint}
    (hc : c ∈ (s.solve first now).session.constraints)
    (hsolved : c.id ∈
      ((s.solver.run later (s.solve first now).session.constraints snapshot).solutions.map (·.constraint))) :
    c.satisfied = true := by
  obtain ⟨d, hd, rfl⟩ := List.mem_map.mp hc
  refine satisfied_judged h ?_
  -- The solution may be that of another constraint with the same identifier.
  rw [Solver.run_constraints, id_judged] at hsolved
  obtain ⟨other, hother, hid⟩ := List.mem_map.mp hsolved
  obtain ⟨hmem, hactive⟩ := mem_solveOrder.mp hother
  obtain ⟨d', hd', rfl⟩ := List.mem_map.mp hmem
  rw [active_judged] at hactive
  rw [id_judged] at hid
  rw [Solver.run_constraints, ← hid]
  exact List.mem_map_of_mem (mem_solveOrder.mpr ⟨hd', hactive⟩)

/-- **Solving a solved drawing does nothing.** If every solution is satisfied, another pass over the same
constraints leaves the geometry as it is, with every constraint satisfied in no iterations and with the same
residual, and without updates unless some field is not a number. If all fields are numbers, solving again
hands nothing to the store and changes no constraint, not even the time when it was last changed; and each
listener is called once. -/
theorem solve_again {later : Observer} (hhears : later.Hears) (again : Timestamp) :
    let pass := s.solver.run first s.constraints s.geometry
    let repeated := s.solver.run later s.constraints pass.geometry
    let settled := (s.solve first now).session
    let second := settled.solve later again
    (repeated.AtRest s.constraints pass.geometry ∧
      repeated.solutions.map (·.constraint) = pass.solutions.map (·.constraint) ∧
      repeated.solutions.map (·.residual) = pass.solutions.map (·.residual)) ∧
    (settled.geometry.IsNumeric →
      batches second.effects = [] ∧ second.session.geometry = settled.geometry ∧
        second.session.constraints = settled.constraints ∧
        calls second.effects = settled.listeners.map fun l => (l.id, settled.constraints)) := by
  intro pass repeated settled second
  refine ⟨s.solver.run_again h hhears, fun hnumeric => ?_⟩
  have hrest := s.atRest_solve h hhears
  have hgeometry : second.session.geometry = settled.geometry := hrest.geometry_eq
  have hconstraints : second.session.constraints = settled.constraints := by
    have hsame : ∀ c ∈ settled.constraints, judged again second.answer c = c := fun c hc =>
      judged_of_satisfied hrest.satisfied (satisfied_of_solved h hc)
    exact (List.map_congr_left hsame).trans (List.map_id _)
  have hunchanged : (Snapshot.changes settled.geometry
      (settled.solver.run later settled.constraints settled.geometry).geometry).isEmpty = true := by
    rw [hrest.geometry_eq, Snapshot.changes_self hnumeric]
    rfl
  have heffects := settled.effects_solve later again hunchanged
  refine ⟨?_, hgeometry, hconstraints, ?_⟩
  · rw [heffects, batches_append, batches_log, batches_notify, List.nil_append]
  · rw [heffects, calls_append, calls_log, calls_notify, List.nil_append, hconstraints]
    rfl

end Again

/-- A slanted line is made horizontal, and its update goes to the store. Later nothing goes there, and the
constraint keeps its time. -/
theorem solve_again_horizontal :
    let start : Session :=
      { solver := ⟨{}⟩, suggestions := {}, series := default, hasStore := true
        constraints := [.bare 1 .horizontal [⟨⟨1⟩⟩]]
        geometry := .ofList [(⟨⟨1⟩⟩, .line ⟨0.0, 0.0⟩ ⟨2.0, 1.0⟩)]
        listeners := [⟨⟨0⟩, fun _ => none⟩] }
    let first := start.solve .silent ⟨1, 0⟩
    let second := first.session.solve .silent ⟨2, 0⟩
    batches first.effects = [.ofList [(⟨⟨1⟩⟩, .line none (some ⟨2.0, 0.0⟩))]] ∧ batches second.effects = [] ∧
      first.session.constraints.map (·.metadata.modified) = [⟨1, 0⟩] ∧
      second.session.constraints = first.session.constraints ∧
      calls second.effects = [(⟨0⟩, first.session.constraints)] := by
  intro start first second
  have hsatisfied : ∀ solution ∈ (start.solve .silent ⟨1, 0⟩).answer, solution.satisfied = true := by decide +kernel
  have hnumeric : first.session.geometry.IsNumeric := by decide +kernel
  obtain ⟨hnone, _, hsame, hcalled⟩ := (solve_again hsatisfied Observer.hears_silent ⟨2, 0⟩).2 hnumeric
  exact ⟨by decide +kernel, hnone, by decide +kernel, hsame, hcalled⟩

end Session

end Drafting
