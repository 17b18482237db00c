import Drafting.Proofs.Session.Identity

/-! What a solve writes back.

The solutions of a pass come in the order of solving, and verdicts are noted in the
order of the row; they find each other by identifier. In a session that can be
reached identifiers differ, so what a constraint finds is its own solution
(`Session.writtenBack_judged`), and it is changed if the verdict is another one than
before. Store and listeners hear of the whole pass, the store first and only if some
entity is not what it was. -/
namespace Drafting

/-- Some entity is not what it was. -/
def Snapshot.Differs (old new : Snapshot) : Prop :=
  ∃ id e e', old.get? id = some e ∧ new.get? id = some e' ∧ (e.diff e').isSome = true

theorem Snapshot.changes_isEmpty_iff {old new : Snapshot} : (old.changes new).isEmpty = true ↔ ¬ old.Differs new := by
  rw [Table.isEmpty_iff]
  constructor
  · rintro h ⟨id, e, e', he, he', hdiff⟩
    have hnone := h id
    rw [get?_changes, he, he', Option.bind_some, Option.bind_some] at hnone
    rw [hnone] at hdiff
    cases hdiff
  · intro h id
    rw [get?_changes]
    cases he : old.get? id with
    | none => rfl
    | some e =>
      cases he' : new.get? id with
      | none => rfl
      | some e' => exact Option.not_isSome_iff_eq_none.mp fun hdiff => h ⟨id, e, e', he, he', hdiff⟩

/-- What a solve leaves of a constraint: an inactive one stays as it is. An active one has a solution, the only one
with its identifier, and takes over the verdict; if that is not the one it had, it counts as changed now. -/
structure Constraint.WrittenBack (now : Timestamp) (results : List (Constraint × Solution)) (c c' : Constraint) : Prop where
  inactive : c.active = false → c' = c
  active : c.active = true → ∃ solution, (c, solution) ∈ results ∧ solution.constraint = c.id ∧
    (∀ other ∈ results, other.2.constraint = c.id → other = (c, solution)) ∧
    c' = { c with
      satisfied := solution.satisfied
      metadata.modified := if solution.satisfied = c.satisfied then c.metadata.modified else now }

/-! ### Results and identifiers -/

namespace Solver

variable {solver : Solver} {observer : Observer} {l : List Constraint} {snapshot : Snapshot}

theorem constraint_of_result {result : Constraint × Solution} (h : result ∈ solver.results observer l snapshot) :
    result.1 ∈ solveOrder l ∧ result.2 ∈ (solver.run observer l snapshot).solutions ∧
      result.2.constraint = result.1.id := by
  refine ⟨(List.of_mem_zip h).1, (List.of_mem_zip h).2, ?_⟩
  rw [results_eq] at h
  obtain ⟨a, _, rfl⟩ := List.mem_map.mp h
  exact Attempt.verdict_constraint ..

/-- What is solved has a result. -/
theorem exists_result {c : Constraint} (h : c ∈ solveOrder l) :
    ∃ solution, (c, solution) ∈ solver.results observer l snapshot := by
  rw [← constraints_attempts observer solver.settings (solveOrder l) snapshot] at h
  obtain ⟨a, ha, rfl⟩ := List.mem_map.mp h
  rw [results_eq]
  exact ⟨_, List.mem_map_of_mem ha⟩

theorem solutions_eq : (solver.run observer l snapshot).solutions = (solver.results observer l snapshot).map Prod.snd := by
  rw [results_eq, judgements, List.map_map, run_solutions]
  rfl

/-- Of results with different identifiers, one is found by its own. -/
theorem result_unique (h : (l.map (·.id)).Nodup) {result other : Constraint × Solution}
    (hresult : result ∈ solver.results observer l snapshot) (hother : other ∈ solver.results observer l snapshot)
    (hid : other.2.constraint = result.2.constraint) : other = result := by
  have hids : ((solver.results observer l snapshot).map fun r => r.2.constraint).Nodup := by
    have hcompose : ((solver.results observer l snapshot).map fun r => r.2.constraint) =
        (solver.run observer l snapshot).solutions.map (·.constraint) := by
      rw [solutions_eq, List.map_map]
      rfl
    rw [hcompose, run_constraints, ((solveOrder_perm l).map _).nodup_iff]
    exact h.sublist (List.filter_sublist.map _)
  exact List.inj_on_of_nodup_map hids hother hresult hid

end Solver

namespace Session

/-! ### Noting verdicts -/

section Verdicts
variable (observer : Observer) (now : Timestamp) {s : Session} (h : (s.constraints.map (·.id)).Nodup)
include h

theorem find?_solution {c : Constraint} {solution : Solution}
    (hresult : (c, solution) ∈ s.solver.results observer s.constraints s.geometry) :
    (s.solver.run observer s.constraints s.geometry).solutions.reverse.find? (·.constraint == c.id) =
      some solution := by
  obtain ⟨_, hmem, hid⟩ := Solver.constraint_of_result hresult
  cases hfound : (s.solver.run observer s.constraints s.geometry).solutions.reverse.find? (·.constraint == c.id) with
  | none => exact absurd (beq_iff_eq.mpr hid) (List.find?_eq_none.mp hfound solution (List.mem_reverse.mpr hmem))
  | some other =>
    have hmem := List.mem_reverse.mp (List.mem_of_find?_eq_some hfound)
    rw [Solver.solutions_eq] at hmem
    obtain ⟨result, hother, rfl⟩ := List.mem_map.mp hmem
    have hsame : result.2.constraint = c.id := by simpa using List.find?_some hfound
    rw [Solver.result_unique h hresult hother (hsame.trans hid.symm)]

theorem writtenBack_judged {c : Constraint} (hc : c ∈ s.constraints) :
    c.WrittenBack now (s.solver.results observer s.constraints s.geometry)
      (judged now (s.solver.run observer s.constraints s.geometry).solutions c) := by
  refine ⟨fun hinactive => ?_, fun hactive => ?_⟩
  · rcases judged_cases now (s.solver.run observer s.constraints s.geometry).solutions c with hkept | ⟨hsolved, _⟩
    · exact hkept
    · obtain ⟨d, hd, hdactive, hid⟩ := solved_of_solution hsolved
      rw [eq_of_id_eq h hd hc hid, hinactive] at hdactive
      cases hdactive
  · obtain ⟨solution, hresult⟩ := Solver.exists_result (mem_solveOrder.mpr ⟨hc, hactive⟩)
    obtain ⟨_, _, hid⟩ := Solver.constraint_of_result hresult
    refine ⟨solution, hresult, hid, fun other hother hsame => ?_, ?_⟩
    · exact Solver.result_unique h hresult hother (hsame.trans hid.symm)
    · simp only [judged, find?_solution observer h hresult]
      split
      · rename_i hverdict
        rw [if_pos hverdict.symm, ← hverdict]
      · rename_i hverdict
        rw [if_neg (Ne.symm hverdict)]
        rfl

end Verdicts

/-! ### What goes out -/

/-- What a solve hands to the store, if there is one: the updates of the whole pass, unless there are none. -/
inductive Hands (hasStore : Bool) (old new : Snapshot) : List Batch → Prop where
  | batch (hstore : hasStore = true) (h : old.Differs new) : Hands hasStore old new [Snapshot.changes old new]
  | nothing (h : ¬ (hasStore = true ∧ old.Differs new)) : Hands hasStore old new []

theorem Hands.eq_changes {hasStore : Bool} {old new : Snapshot} {handed : List Batch} (h : Hands hasStore old new handed) :
    ∀ batch ∈ handed, batch = Snapshot.changes old new := by
  cases h with
  | batch hstore hdiffers => exact fun batch => List.mem_singleton.mp
  | nothing hnone => exact List.forall_mem_nil _

/-- The store comes before the listeners, and these see the constraints as they are then. -/
structure StoreFirst (s : Session) (effects : List Effect) (constraints : List Constraint) : Prop where
  split : ∃ first last, effects = first ++ last ∧ calls first = [] ∧ batches last = [] ∧
    calls last = s.listeners.map fun l => (l.id, constraints)

section Effects
variable (observer : Observer) (now : Timestamp) (s : Session)

theorem hands_solve :
    Hands s.hasStore s.geometry (s.solver.run observer s.constraints s.geometry).geometry
      (batches (s.solve observer now).effects) := by
  simp only [solve, batches_append, batches_log, batches_notify, List.nil_append, List.append_nil]
  split
  · rename_i hempty
    exact .nothing fun hdiffers => Snapshot.changes_isEmpty_iff.mp hempty hdiffers.2
  · rename_i hchanges
    have hdiffers := not_not.mp (mt Snapshot.changes_isEmpty_iff.mpr hchanges)
    split
    · rename_i hstore
      exact .batch hstore hdiffers
    · rename_i hstore
      exact .nothing fun hboth => hstore hboth.1

theorem storeFirst_solve : StoreFirst s (s.solve observer now).effects (s.solve observer now).session.constraints := by
  refine ⟨_, (s.solve observer now).session.notify, rfl, ?_, batches_notify _, calls_notify _⟩
  rw [calls_append, calls_log, List.nil_append]
  split
  · rfl
  · split <;> rfl

end Effects

/-- Only a toggle, or another verdict, counts as a change of a constraint. -/
theorem Revises.modified_eq {now : Timestamp} {s : Session} {operation : Operation} {c c' : Constraint}
    (h : Revises now s operation c c') (hmodified : c'.metadata.modified ≠ c.metadata.modified) :
    (∃ active, operation = .toggle c.id active) ∨ operation = .solve ∧ c'.satisfied ≠ c.satisfied := by
  cases h with
  | untouched => exact absurd rfl hmodified
  | toggled => exact .inl ⟨_, rfl⟩
  | overturned _ => exact .inr ⟨rfl, Bool.not_ne_self c.satisfied⟩

/-- **A solve writes back exactly its pass.** In every session that can be reached while identifiers differ, the
answer, the geometry and the report are those of the pass over the constraints and the geometry of the session.
Every constraint is written back: an inactive one is left alone, an active one takes over the verdict of its own
solution and counts as changed if that is another one. A store receives one batch if some entity differs and
nothing else, and then each listener is called with the constraints as they are written back. Throughout the run
nothing but a toggle of the constraint and another verdict of a solve, while it is active, has changed the time of
a constraint. -/
theorem solve_writes_back {settings : Settings} {space : Uuid} {hasStore : Bool} {start : Session}
    (h : ofSettings settings (.ofSpace space) hasStore = .ok start) (before : Observer)
    {operations : List (Timestamp × Operation)}
    (hdistinct : Series.Distinct space (start.issued before operations).length) (observer : Observer) (now : Timestamp) :
    let s := start.after before operations
    let pass := s.solver.run observer s.constraints s.geometry
    let o := s.solve observer now
    (o.answer = pass.solutions ∧ o.session.geometry = pass.geometry ∧ o.session.report = some pass.report) ∧
    List.Forall₂ (Constraint.WrittenBack now (s.solver.results observer s.constraints s.geometry))
      s.constraints o.session.constraints ∧
    Hands s.hasStore s.geometry pass.geometry (batches o.effects) ∧
    StoreFirst s o.effects o.session.constraints ∧
    ∀ earlier time operation rest, operations = earlier ++ (time, operation) :: rest →
      let s := start.after before earlier
      ∀ c ∈ s.constraints, ∀ c' ∈ (s.perform before time operation).session.constraints, c'.id = c.id →
        c'.metadata.modified ≠ c.metadata.modified →
        (∃ active, operation = .toggle c.id active) ∨
          operation = .solve ∧ c.active = true ∧ c'.satisfied ≠ c.satisfied := by
  intro s pass o
  refine ⟨⟨rfl, rfl, rfl⟩, ?_, s.hands_solve observer now, s.storeFirst_solve observer now, ?_⟩
  · refine List.forall₂_map_right_iff.mpr (List.forall₂_same.mpr fun c hc => ?_)
    exact writtenBack_judged observer now (nodup_after before h hdistinct) hc
  · rintro earlier time operation rest rfl s c hc c' hc' hid hmodified
    have hfresh := nodup_perform before h hdistinct
    have hrevised := (s.changes_perform before time operation).revises hfresh hc hc' hid
    refine (hrevised.modified_eq hmodified).imp_right fun ⟨hsolve, hverdict⟩ => ⟨hsolve, ?_, hverdict⟩
    exact ((s.orderly_perform before time operation hfresh).satisfied c hc c' hc' hid hverdict).2

/-- A slanted line is made horizontal. The constraint gets its verdict and the time of the solve, the store one batch,
and the listener the constraint as it is then. -/
theorem solve_writes_back_horizontal :
    let start : Session := { solver := ⟨{}⟩, suggestions := {}, series := .ofSpace ⟨7⟩, hasStore := true }
    let slanted : Snapshot := .ofList [(⟨⟨1⟩⟩, .line ⟨0.0, 0.0⟩ ⟨2.0, 1.0⟩)]
    let operations : List (Timestamp × Operation) :=
      [(⟨1, 0⟩, .replaceGeometry slanted), (⟨2, 0⟩, .listen fun _ => none),
        (⟨3, 0⟩, .create { kind := .horizontal, entities := [⟨⟨1⟩⟩] })]
    let s := start.after .silent operations
    let o := s.solve .silent ⟨4, 0⟩
    ofSettings {} (.ofSpace ⟨7⟩) true = .ok start ∧ Series.Distinct ⟨7⟩ (start.issued .silent operations).length ∧
      List.Forall₂ (Constraint.WrittenBack ⟨4, 0⟩ (s.solver.results .silent s.constraints s.geometry))
        s.constraints o.session.constraints ∧
      s.constraints.map (fun c => (c.satisfied, c.metadata.modified)) = [(false, ⟨3, 0⟩)] ∧
      o.session.constraints.map (fun c => (c.satisfied, c.metadata.modified)) = [(true, ⟨4, 0⟩)] ∧
      batches o.effects = [.ofList [(⟨⟨1⟩⟩, .line none (some ⟨2.0, 0.0⟩))]] ∧
      (calls o.effects).map Prod.fst = [⟨0⟩] := by
  intro start slanted operations s o
  have hstart : ofSettings {} (.ofSpace ⟨7⟩) true = .ok start := rfl
  have hdistinct : Series.Distinct ⟨7⟩ (start.issued .silent operations).length := by decide +kernel
  obtain ⟨_, hwritten, _⟩ := solve_writes_back hstart .silent hdistinct .silent ⟨4, 0⟩
  exact ⟨hstart, hdistinct, hwritten, by decide +kernel, by decide +kernel, by decide +kernel, by decide +kernel⟩

end Session

end Drafting
