import Drafting.Proofs.Solving.Pass

/-! What may get another radius.

Three kinds of constraints are about a radius, and each of them gives one entity
another: the one at a fixed place of its list (`Constraint.resized?`). All other
corrections move entities and redraw lines, and that keeps every radius. So a
radius that no active constraint may change is the same behind a pass, whatever
else happens to the entity (`Solver.run_radius`). -/
namespace Drafting

/-- The place of the entity that gets another radius, for the kinds that give one. -/
def ConstraintKind.resizedPlace? : ConstraintKind → Option Nat
  | .radius | .diameter => some 0
  | .equalRadius => some 1
  | _ => none

namespace Constraint

/-- The entity whose radius a constraint may change. -/
def resized? (c : Constraint) : Option EntityId := c.kind.resizedPlace?.bind (c.entities[·]?)

variable {c : Constraint} {settings : SolverSettings} {s t : Snapshot}

/-- A relation that gives another radius gives it to the entity at the place for that. -/
theorem resized?_of_resizes {r : Relation} (h : c.relation? s = .ok r) (hr : r.resizes = true) :
    ∀ mover ∈ r.movers settings, c.resized? = some mover.id := by
  have hkind := kind_relation? h
  unfold relation? at h
  rw [resized?, ← hkind]
  rw [← hkind] at h
  intro mover hmover
  cases r
  case equalRadius | radius | diameter =>
    simp only [Relation.kind, bind_eq_ok, pure_eq_ok] at h
    obtain ⟨_, _, moved, hmoved, heq⟩ := h
    cases heq
    rw [List.mem_singleton.mp hmover]
    exact place_of_roundAt hmoved
  all_goals cases hr

/-- **A corrective step keeps every radius that its constraint is not about.** -/
theorem step_radius (h : c.step settings s = .ok t) {id : EntityId} (hid : c.resized? ≠ some id) :
    t.radius? id = s.radius? id := by
  obtain ⟨changes, hc, rfl⟩ := step_eq_ok.mp h
  obtain ⟨r, hr, hc⟩ := correction_eq_ok.mp hc
  unfold Snapshot.radius?
  rcases Table.get?_insertAll_cases s (changes.map fun s => (s.id, s.entity)) id with hsame | ⟨e, he, hget⟩
  · rw [hsame]
  · rw [hget]
    obtain ⟨changed, hchanged, heq⟩ := List.mem_map.mp he
    cases heq
    cases hresizes : r.resizes with
    | true =>
      obtain ⟨mover, hmover, hsame, _⟩ := exists_source (Relation.correction_reworks settings hc) hchanged
      exact absurd (hsame ▸ resized?_of_resizes hr hresizes mover hmover) hid
    | false =>
      obtain ⟨mover, hmover, hsame, hmoved⟩ :=
        exists_source (Relation.correction_moves settings hresizes hc) hchanged
      rw [hsame, (finds_movers settings hr mover hmover).2]
      exact hmoved.radius?_eq

end Constraint

/-- **A pass keeps every radius that no active constraint is about.** -/
theorem Solver.run_radius (solver : Solver) (observer : Observer) {l : List Constraint} (snapshot : Snapshot)
    {id : EntityId} (h : ∀ c ∈ l, c.active = true → c.resized? ≠ some id) :
    (solver.run observer l snapshot).geometry.radius? id = snapshot.radius? id :=
  solver.run_preserves observer l snapshot
    (fun c hc hactive _ _ hs hnext => (Constraint.step_radius hnext (h c hc hactive)).trans hs) rfl

end Drafting
