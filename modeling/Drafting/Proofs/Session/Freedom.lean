import Drafting.Proofs.Session.Rest
import Drafting.Proofs.Solving.Radius

/-! What entities are, and the balance of degrees of freedom.

Solving moves entities, but it leaves them what they are: no entity comes in or goes
away, the shape of each one stays, and a radius changes only where a constraint is
about that radius (`Session.run_keeps_entities`). The degrees of freedom of an entity
are a matter of its shape, and those that a constraint takes away of its kind and
its number of entities. So the balance of a drawing is the same before and after a
solve, whatever the constraints are and whether they can be satisfied or not. -/
namespace Drafting

def Shape.freedom : Shape → Int32
  | .point => 2
  | .line => 4
  | .circle => 3
  | .arc .. => 5
  | .rectangle .. => 4
  | .polyline vertices _ => 2 * .ofNat vertices

theorem Entity.freedom_shape (e : Entity) : e.shape.freedom = e.freedom := by
  cases e <;> rfl

/-- The balance of degrees of freedom looks at shapes only. -/
theorem Freedom.of_congr {s t : Snapshot} (h : t.map Entity.shape = s.map Entity.shape) (l : List Constraint) :
    Freedom.of l t = Freedom.of l s := by
  have hbrought (u : Snapshot) : u.values.map Entity.freedom = (u.map Entity.shape).values.map Shape.freedom := by
    rw [Table.values_map, List.map_map]
    exact List.map_congr_left fun e _ => e.freedom_shape.symm
  simp only [Freedom.of, hbrought, h]

namespace Session

/-- What is noted on constraints takes no degree of freedom away. -/
theorem freedom_judged (now : Timestamp) (solutions : List Solution) (l : List Constraint) (snapshot : Snapshot) :
    Freedom.of (l.map (judged now solutions)) snapshot = Freedom.of l snapshot := by
  have hactive : (fun c : Constraint => c.active) ∘ judged now solutions = (·.active) := funext fun c => active_judged
  have htaken : (fun c : Constraint => c.kind.equations c.entities.length) ∘ judged now solutions =
      fun c => c.kind.equations c.entities.length := by
    funext c
    obtain ⟨_, _, h⟩ := judged_eq now solutions c
    rw [Function.comp_apply, h]
  simp only [Freedom.of, List.filter_map, List.map_map, hactive, htaken]

theorem freedom_solve (observer : Observer) (now : Timestamp) (s : Session) :
    (s.solve observer now).session.freedom = s.freedom := by
  have hconf := s.solver.run_confined observer s.constraints s.geometry
  exact (freedom_judged now _ s.constraints _).trans (Freedom.of_congr hconf.map_shape_eq s.constraints)

/-- **Solving never changes what an entity is.** Whatever the constraints are, a pass ends with the entities that
it began with. Each keeps its kind, an arc its angles, a rectangle its width and height, a polyline the number of
its vertices and whether it is closed; and each keeps its radius, except where an active constraint gives another
one. Hence a session has the same degrees of freedom before and after every solve. -/
theorem run_keeps_entities (solver : Solver) (observer : Observer) (l : List Constraint) (snapshot : Snapshot) :
    let final := (solver.run observer l snapshot).geometry
    final.keys = snapshot.keys ∧
    (∀ id, (final.get? id).map Entity.shape = (snapshot.get? id).map Entity.shape) ∧
    (∀ id, (∀ c ∈ l, c.active = true → c.resized? ≠ some id) → final.radius? id = snapshot.radius? id) ∧
    ∀ (s : Session) (now : Timestamp), (s.solve observer now).session.freedom = s.freedom := by
  intro final
  have hconf := solver.run_confined observer l snapshot
  exact ⟨hconf.keys, hconf.shape, fun id h => solver.run_radius observer snapshot h,
    fun s now => s.freedom_solve observer now⟩

/-- A rectangle that is listed twice and a circle are moved to a point, and an arc gets another radius. A constraint
on the circle's own radius is switched off. -/
theorem run_keeps_entities_mixed :
    let mixed : Snapshot := .ofList
      [(⟨⟨1⟩⟩, .point ⟨1.0, 1.0⟩), (⟨⟨2⟩⟩, .rectangle ⟨4.0, 0.0⟩ 2.0 3.0), (⟨⟨3⟩⟩, .circle ⟨7.0, 7.0⟩ 2.0),
        (⟨⟨4⟩⟩, .arc ⟨0.0, 0.0⟩ 1.0 0.0 3.0)]
    let together : Constraint := .bare 1 .coincident [⟨⟨1⟩⟩, ⟨⟨2⟩⟩, ⟨⟨3⟩⟩, ⟨⟨2⟩⟩]
    let wider : Constraint := { Constraint.bare 2 .radius [⟨⟨4⟩⟩] with parameters := .ofList [(.radius, .number 5.0)] }
    let off : Constraint := { Constraint.bare 3 .diameter [⟨⟨3⟩⟩] with active := false }
    let final := ((⟨{}⟩ : Solver).run .silent [together, wider, off] mixed).geometry
    final.get? ⟨⟨2⟩⟩ = some (.rectangle ⟨1.0, 1.0⟩ 2.0 3.0) ∧ final.get? ⟨⟨4⟩⟩ = some (.arc ⟨0.0, 0.0⟩ 5.0 0.0 3.0) ∧
      (final.get? ⟨⟨3⟩⟩).map Entity.reference = some ⟨1.0, 1.0⟩ ∧ final.radius? ⟨⟨3⟩⟩ = mixed.radius? ⟨⟨3⟩⟩ := by
  intro mixed together wider off final
  have hkept : ∀ c ∈ [together, wider, off], c.active = true → c.resized? ≠ some ⟨⟨3⟩⟩ := by decide +kernel
  exact ⟨by decide +kernel, by decide +kernel, by decide +kernel,
    (run_keeps_entities ⟨{}⟩ .silent [together, wider, off] mixed).2.2.1 ⟨⟨3⟩⟩ hkept⟩

end Session

end Drafting
