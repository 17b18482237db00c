import Drafting.Entity.Update
import Drafting.Proofs.Entity.Shape

/-! Entities made of finite numbers.

The numbers of an entity are its coordinates, which say where it is, and its
measures: a radius, the angles of an arc, the sizes of a rectangle. Moving an entity
gives it other coordinates and the same measures, and another radius is a measure.
An update holds numbers of the new entity only (`Entity.coordinates_diff`,
`Entity.measures_diff`). -/
namespace Drafting

/-- Every number of the list is finite. -/
def Number.AllFinite (l : List Float) : Prop := ∀ x ∈ l, x.isFinite = true

instance (l : List Float) : Decidable (Number.AllFinite l) := inferInstanceAs (Decidable (∀ x ∈ l, x.isFinite = true))

open Number (AllFinite)

def Point.coordinates (p : Point) : List Float := [p.x, p.y]

namespace Entity

/-- The numbers that say where an entity is. -/
def coordinates : Entity → List Float
  | .point p => p.coordinates
  | .line s e => s.coordinates ++ e.coordinates
  | .circle c _ => c.coordinates
  | .arc c _ _ _ => c.coordinates
  | .rectangle p _ _ => p.coordinates
  | .polyline ps _ => ps.flatMap Point.coordinates

/-- The other numbers of an entity: radius, angles and sizes. -/
def measures : Entity → List Float
  | .circle _ r => [r]
  | .arc _ r s e => [r, s, e]
  | .rectangle _ w h => [w, h]
  | _ => []

/-- Every number of the entity is finite. -/
def IsFinite (e : Entity) : Prop := AllFinite e.coordinates ∧ AllFinite e.measures

instance : DecidablePred IsFinite := fun e => inferInstanceAs (Decidable (AllFinite e.coordinates ∧ AllFinite e.measures))

@[simp] theorem measures_translated (v : Vec) (e : Entity) : (e.translated v).measures = e.measures := by
  cases e <;> rfl

theorem Moved.measures_eq {e e' : Entity} (h : e.Moved e') : e'.measures = e.measures := by
  cases h with
  | translated => exact measures_translated _ e
  | redrawn => rfl

@[simp] theorem coordinates_withRadius (r : Float) (e : Entity) : (e.withRadius r).coordinates = e.coordinates := by
  cases e <;> rfl

/-- Another radius is the only measure that is new. -/
theorem measures_withRadius {r x : Float} {e : Entity} (h : x ∈ (e.withRadius r).measures) : x ∈ e.measures ∨ r = x := by
  cases e with
  | circle c r' => exact .inr (List.mem_singleton.mp h).symm
  | arc c r' s e =>
    rcases List.mem_cons.mp h with h | h
    · exact .inr h.symm
    · exact .inl (List.mem_cons_of_mem r' h)
  | _ => exact .inl h

theorem radius_mem_measures {e : Entity} {center : Point} {radius : Float} (h : e.circular? = some (center, radius)) :
    radius ∈ e.measures := by
  cases e <;> cases h <;> exact List.mem_cons_self

end Entity

/-! ### Updates -/

namespace EntityUpdate

/-- The coordinates that an update gives. -/
def coordinates : EntityUpdate → List Float
  | .point p => p.toList.flatMap Point.coordinates
  | .line s e => s.toList.flatMap Point.coordinates ++ e.toList.flatMap Point.coordinates
  | .circle c _ => c.toList.flatMap Point.coordinates
  | .arc c _ _ _ => c.toList.flatMap Point.coordinates
  | .rectangle p _ _ => p.toList.flatMap Point.coordinates
  | .polyline ps _ => ps.toList.flatMap fun ps => ps.flatMap Point.coordinates

/-- The measures that an update gives. -/
def measures : EntityUpdate → List Float
  | .circle _ r => r.toList
  | .arc _ r s e => r.toList ++ s.toList ++ e.toList
  | .rectangle _ w h => w.toList ++ h.toList
  | _ => []

/-- Every number of the update is finite. -/
def IsFinite (u : EntityUpdate) : Prop := AllFinite u.coordinates ∧ AllFinite u.measures

instance : DecidablePred IsFinite := fun u => inferInstanceAs (Decidable (AllFinite u.coordinates ∧ AllFinite u.measures))

end EntityUpdate

namespace Entity

section Changed
variable {α : Type} {agrees : α → α → Bool} {old new : α}

/-- A changed field has its new value. -/
theorem eq_of_mem_changed {a : α} (h : a ∈ (changed agrees old new).toList) : a = new := by
  unfold changed at h
  split at h
  · cases h
  · exact List.mem_singleton.mp h

theorem mem_of_mem_changed (f : α → List Float) {x : Float} (h : x ∈ (changed agrees old new).toList.flatMap f) :
    x ∈ f new := by
  obtain ⟨a, ha, hx⟩ := List.mem_flatMap.mp h
  rwa [← eq_of_mem_changed ha]

end Changed

variable {old new : Entity} {u : EntityUpdate}

/-- An update has no other coordinates than the new ones. -/
theorem coordinates_diff (h : old.diff new = some u) : ∀ x ∈ u.coordinates, x ∈ new.coordinates := by
  intro x hx
  obtain ⟨hdifference, _⟩ := Option.filter_eq_some_iff.mp h
  cases old <;> cases new <;> cases hdifference
  case line.line =>
    rcases List.mem_append.mp hx with hx | hx
    · exact List.mem_append_left _ (mem_of_mem_changed Point.coordinates hx)
    · exact List.mem_append_right _ (mem_of_mem_changed Point.coordinates hx)
  case polyline.polyline => exact mem_of_mem_changed (List.flatMap Point.coordinates) hx
  all_goals exact mem_of_mem_changed Point.coordinates hx

/-- An update has no other measures than the new ones. -/
theorem measures_diff (h : old.diff new = some u) : ∀ x ∈ u.measures, x ∈ new.measures := by
  intro x hx
  obtain ⟨hdifference, _⟩ := Option.filter_eq_some_iff.mp h
  cases old <;> cases new <;> cases hdifference
  case circle.circle => exact List.mem_singleton.mpr (eq_of_mem_changed hx)
  case arc.arc =>
    rcases List.mem_append.mp hx with hx | hx
    · rcases List.mem_append.mp hx with hx | hx
      · exact eq_of_mem_changed hx ▸ List.mem_cons_self
      · exact eq_of_mem_changed hx ▸ List.mem_cons_of_mem _ List.mem_cons_self
    · exact eq_of_mem_changed hx ▸ List.mem_cons_of_mem _ (List.mem_cons_of_mem _ List.mem_cons_self)
  case rectangle.rectangle =>
    rcases List.mem_append.mp hx with hx | hx
    · exact eq_of_mem_changed hx ▸ List.mem_cons_self
    · exact eq_of_mem_changed hx ▸ List.mem_cons_of_mem _ List.mem_cons_self
  all_goals cases hx

end Entity

/-- Every entity is finite. -/
def Snapshot.IsFinite (s : Snapshot) : Prop := ∀ e ∈ s.values, e.IsFinite

instance (s : Snapshot) : Decidable s.IsFinite := inferInstanceAs (Decidable (∀ e ∈ s.values, e.IsFinite))

end Drafting
