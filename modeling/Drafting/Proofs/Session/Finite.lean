import Drafting.Proofs.Admission
import Drafting.Proofs.Session.Soundness
import Drafting.Proofs.Session.WriteBack
import Drafting.Proofs.Solving.Finite

/-! What a solve leaves finite.

Admission lets only finite values in, so in every session the values that a pass
gives to radii are finite. A solve in a finite drawing keeps all radii, angles and
sizes finite, and the coordinates of every entity but those that some active
constraint may displace (`Session.solve_keeps_finite`); and the same is true of what
the store is handed. Where entities are displaced, distances are squared without
scaling, and a step whose residual is not a number does not count as one that made
no progress; so coordinates can be lost (`Session.not_finite_of_finite`). -/
namespace Drafting

open Number (AllFinite)

namespace Session

/-- Some active constraint may displace the entity. -/
def MayDisplace (s : Session) (id : EntityId) : Prop :=
  ∃ c ∈ s.constraints, c.active = true ∧ c.kind.displaces = true ∧ id ∈ c.entities

instance (s : Session) (id : EntityId) : Decidable (s.MayDisplace id) :=
  inferInstanceAs (Decidable (∃ c ∈ s.constraints, c.active = true ∧ c.kind.displaces = true ∧ id ∈ c.entities))

/-! ### Values -/

theorem hasFiniteValue_of_admits {s : Session} {c : Constraint} (h : s.Admits c) : c.HasFiniteValue := by
  obtain ⟨parameters, hcheck, hparameters⟩ := h
  intro key hkey x hx
  have hkind : c.kind ≠ .fix := fun hfix => by simp [hfix, ConstraintKind.valueKey?] at hkey
  rw [hparameters, completed_of_ne s hkind] at hx
  exact Admission.number?_isFinite (Admission.check_eq_ok.mp hcheck).value hkey hx

theorem Revises.hasFiniteValue {now : Timestamp} {s : Session} {operation : Operation} {c c' : Constraint}
    (h : Revises now s operation c c') (hc : c.HasFiniteValue) : c'.HasFiniteValue := by
  cases h with
  | untouched => exact hc
  | toggled => exact hc
  | overturned _ => exact hc

/-! ### Solving -/

theorem finiteBut_solve {s : Session} (hvalues : ∀ c ∈ s.constraints, c.HasFiniteValue) (hfinite : s.geometry.IsFinite)
    (observer : Observer) (now : Timestamp) : (s.solve observer now).session.geometry.FiniteBut s.MayDisplace := by
  refine s.solver.run_finite observer hvalues (fun c hc hactive hdisplaces id hid => ⟨c, hc, hactive, hdisplaces, hid⟩) ?_
  intro id e he
  have hboth := hfinite e (Table.mem_values_iff.mpr ⟨id, he⟩)
  exact ⟨hboth.2, fun _ => hboth.1⟩

/-- **A solve keeps every measure finite, and every entity that it does not displace.** In every session that can be
reached, if every number of the drawing is finite, every radius, angle and size is finite after a solve, and every
number of an entity that no active constraint may displace. The store is handed only such numbers, too. -/
theorem solve_keeps_finite {settings : Settings} {series : Series} {hasStore : Bool} {start : Session}
    (h : ofSettings settings series hasStore = .ok start) (before : Observer)
    {operations : List (Timestamp × Operation)} (hfinite : (start.after before operations).geometry.IsFinite)
    (observer : Observer) (now : Timestamp) :
    let s := start.after before operations
    let o := s.solve observer now
    (∀ id e, o.session.geometry.get? id = some e → AllFinite e.measures ∧ (¬ s.MayDisplace id → e.IsFinite)) ∧
    ∀ batch ∈ batches o.effects, ∀ id u, batch.get? id = some u →
      AllFinite u.measures ∧ (¬ s.MayDisplace id → u.IsFinite) := by
  intro s o
  obtain ⟨solver, hstart⟩ := ofSettings_eq_ok h
  have hvalues : ∀ c ∈ s.constraints, c.HasFiniteValue := by
    refine holds_after before hasFiniteValue_of_admits Revises.hasFiniteValue ?_ operations
    rw [hstart]
    exact List.forall_mem_nil _
  have hkept : o.session.geometry.FiniteBut s.MayDisplace := finiteBut_solve hvalues hfinite observer now
  refine ⟨fun id e he => ⟨(hkept id e he).1, fun hfree => ⟨(hkept id e he).2 hfree, (hkept id e he).1⟩⟩, ?_⟩
  intro batch hbatch id u hu
  rw [(s.hands_solve observer now).eq_changes batch hbatch, Snapshot.get?_changes] at hu
  obtain ⟨old, _, hu⟩ := Option.bind_eq_some_iff.mp hu
  obtain ⟨e, he, hdiff⟩ := Option.bind_eq_some_iff.mp hu
  have hmeasures : AllFinite u.measures := fun x hx => (hkept id e he).1 x (Entity.measures_diff hdiff x hx)
  refine ⟨hmeasures, fun hfree => ⟨fun x hx => ?_, hmeasures⟩⟩
  exact (hkept id e he).2 hfree x (Entity.coordinates_diff hdiff x hx)

/-- Two points that are further apart than a number can be squared, and a circle. -/
def distant : Snapshot :=
  .ofList [(⟨⟨1⟩⟩, .point ⟨0.0, 0.0⟩), (⟨⟨2⟩⟩, .point ⟨1e200, 0.0⟩), (⟨⟨3⟩⟩, .circle ⟨5.0, 0.0⟩ 2.0)]

/-- The distance of the points and the diameter of the circle are asked for. -/
def demanding : List (Timestamp × Operation) :=
  [(default, .replaceGeometry distant),
    (default, .create { kind := .distance, entities := [⟨⟨1⟩⟩, ⟨⟨2⟩⟩], value := some 5.0 }),
    (default, .create { kind := .diameter, entities := [⟨⟨3⟩⟩], value := some 6.0 })]

/-- The circle, which nothing displaces, gets its diameter and stays finite. -/
theorem solve_keeps_finite_circle :
    let start : Session := { solver := ⟨{}⟩, suggestions := {}, series := default, hasStore := true }
    let s := start.after .silent demanding
    let solved := (s.solve .silent default).session.geometry
    ofSettings {} default true = .ok start ∧ s.geometry.IsFinite ∧
      solved.get? ⟨⟨3⟩⟩ = some (.circle ⟨5.0, 0.0⟩ 3.0) ∧ ∀ e, solved.get? ⟨⟨3⟩⟩ = some e → e.IsFinite := by
  intro start s solved
  have hstart : ofSettings {} default true = .ok start := rfl
  have hfinite : s.geometry.IsFinite := by decide +kernel
  have hfree : ¬ s.MayDisplace ⟨⟨3⟩⟩ := by decide +kernel
  refine ⟨hstart, hfinite, by decide +kernel, fun e he => ?_⟩
  exact ((solve_keeps_finite hstart .silent hfinite .silent default).1 ⟨⟨3⟩⟩ e he).2 hfree

/-- A finite drawing need not stay finite: the points are so far apart that their distance is infinite, the step
towards the target ends at what is no number, and since nothing compares to that, the step is kept and handed over. -/
theorem not_finite_of_finite :
    let start : Session := { solver := ⟨{}⟩, suggestions := {}, series := default, hasStore := true }
    let s := start.after .silent demanding
    let o := s.solve .silent default
    let lost : Point := ⟨0.0 / 0.0, 0.0 / 0.0⟩
    ofSettings {} default true = .ok start ∧ s.geometry.IsFinite ∧ s.constraints.length = 2 ∧
      o.session.geometry.get? ⟨⟨2⟩⟩ = some (.point lost) ∧ ¬ o.session.geometry.IsFinite ∧
      (batches o.effects).map (fun batch => batch.get? ⟨⟨2⟩⟩) = [some (.point (some lost))] := by
  intro start s o lost
  refine ⟨rfl, ?_⟩
  decide +kernel

end Session

end Drafting
