import Drafting.Proofs.Entity.Shape
import Drafting.Proofs.Solving.Lookup
import Mathlib.Data.List.Forall2

/-! What one corrective step writes.

A correction answers with its movers, reworked (`Relation.correction_reworks`).
The movers are entities of the constraint as the snapshot has them, so the step is
confined to the constraint's own entities (`Constraint.step_confined`). It reads no
others either: on snapshots that agree on a set of entities around the constraint,
the step fails in the same way, or leads to snapshots that agree there
(`Constraint.step_agree`). -/
namespace Drafting

/-- The same entity, elsewhere or drawn anew. -/
def Subject.Moved (s s' : Subject) : Prop := s'.id = s.id ∧ s.entity.Moved s'.entity

/-- The same entity, reworked. -/
def Subject.Reworked (s s' : Subject) : Prop := s'.id = s.id ∧ s.entity.Reworked s'.entity

theorem Subject.Moved.reworked {s s' : Subject} (h : s.Moved s') : s.Reworked s' := ⟨h.1, h.2.reworked⟩

namespace Relation

/-- Whether the relation is about a radius, and gives another one. -/
def resizes : Relation → Bool
  | equalRadius .. | radius .. | diameter .. => true
  | _ => false

theorem redrawn (l : Line) (s : Segment) : List.Forall₂ Subject.Moved [l.subject] [⟨l.id, .ofSegment s⟩] :=
  .cons ⟨rfl, .redrawn _ _⟩ .nil

theorem resized (c : Round) (radius : Float) :
    List.Forall₂ Subject.Reworked [c.subject] [⟨c.id, c.entity.withRadius radius⟩] :=
  .cons ⟨rfl, .resized _ _⟩ .nil

/-- The movers of a list, each at a place of its own. -/
theorem moved (target : Subject → Nat → Point) (subjects : List Subject) (start : Nat) :
    List.Forall₂ Subject.Moved subjects
      ((subjects.zipIdx start).map fun (s, place) => ⟨s.id, s.entity.movedTo (target s place)⟩) := by
  induction subjects generalizing start with
  | nil => exact .nil
  | cons s rest ih => exact .cons ⟨rfl, .translated _ _⟩ (ih _)

/-- Where no radius is asked for, a correction gives its movers other places, and nothing else. -/
theorem correction_moves (settings : SolverSettings) {r : Relation} {changes : List Subject} (hr : r.resizes = false)
    (h : r.correction settings = .ok changes) : List.Forall₂ Subject.Moved (r.movers settings) changes := by
  cases r <;> simp only [correction, bind_eq_ok, pure_eq_ok] at h
  case equalRadius | radius | diameter => cases hr
  case parallel | perpendicular =>
    obtain ⟨_, _, _, _, rfl⟩ := h
    exact redrawn _ _
  case horizontal | vertical | equalLength | length =>
    subst h
    exact redrawn _ _
  case tangentLine =>
    obtain ⟨_, _, _, _, rfl⟩ := h
    exact redrawn _ _
  case tangentCircles | concentric | midpoint | fix =>
    subst h
    exact .cons ⟨rfl, .translated _ _⟩ .nil
  case coincident anchor subjects =>
    subst h
    exact List.forall₂_map_right_iff.mpr (List.forall₂_same.mpr fun s _ => ⟨rfl, .translated _ _⟩)
  case collinear =>
    obtain ⟨_, _, _, _, _, _, _, _, rfl⟩ := h
    exact redrawn _ _
  case symmetric =>
    obtain ⟨_, _, rfl⟩ := h
    exact .cons ⟨rfl, .translated _ _⟩ .nil
  case distance =>
    cases hmode : settings.distanceMode <;> simp only [movers, hmode, pure_eq_ok] at h ⊢ <;> subst h
    · exact .cons ⟨rfl, .translated _ _⟩ .nil
    · exact .cons ⟨rfl, .translated _ _⟩ (.cons ⟨rfl, .translated _ _⟩ .nil)
  case angle =>
    obtain ⟨_, _, rfl⟩ := h
    exact redrawn _ _
  case pattern offset origin subjects =>
    subst h
    exact moved (fun _ place => patternPoint origin offset place) subjects 1
  case offsetDistance =>
    obtain ⟨_, _, _, _, _, _, _, _, rfl⟩ := h
    exact redrawn _ _

/-- A correction gives its movers new values, and nothing else. -/
theorem correction_reworks (settings : SolverSettings) {r : Relation} {changes : List Subject}
    (h : r.correction settings = .ok changes) :
    List.Forall₂ Subject.Reworked (r.movers settings) changes := by
  cases hr : r.resizes with
  | false => exact (correction_moves settings hr h).imp fun _ _ => Subject.Moved.reworked
  | true =>
    cases r <;> simp only [correction, pure_eq_ok] at h
    case equalRadius | radius | diameter =>
      subst h
      exact resized _ _
    all_goals cases hr

end Relation

/-- What is written comes from what stood there. -/
theorem exists_source {α β : Type} {r : α → β → Prop} {before : List α} {after : List β} {b : β}
    (h : List.Forall₂ r before after) (hb : b ∈ after) : ∃ a ∈ before, r a b := by
  induction h with
  | nil => cases hb
  | cons hr _ ih =>
    rcases List.mem_cons.mp hb with rfl | hb
    · exact ⟨_, List.mem_cons_self, hr⟩
    · obtain ⟨a, ha, hr⟩ := ih hb
      exact ⟨a, List.mem_cons_of_mem _ ha, hr⟩

/-- Snapshots that hold the same entities under these identifiers. -/
def Snapshot.AgreeOn (ids : List EntityId) (s t : Snapshot) : Prop := ∀ id ∈ ids, s.get? id = t.get? id

namespace Snapshot.AgreeOn

variable {ids : List EntityId} {s t u : Snapshot}

theorem refl (ids : List EntityId) (s : Snapshot) : AgreeOn ids s s := fun _ _ => rfl

theorem symm (h : AgreeOn ids s t) : AgreeOn ids t s := fun id hid => (h id hid).symm

theorem trans (h : AgreeOn ids s t) (h' : AgreeOn ids t u) : AgreeOn ids s u :=
  fun id hid => (h id hid).trans (h' id hid)

theorem mono {ids' : List EntityId} (h : AgreeOn ids s t) (hsub : ids' ⊆ ids) : AgreeOn ids' s t :=
  fun id hid => h id (hsub hid)

theorem insertAll (h : AgreeOn ids s t) (l : List (EntityId × Entity)) : AgreeOn ids (s.insertAll l) (t.insertAll l) :=
  fun id hid => Table.get?_insertAll_congr (h id hid) l

/-- What happens elsewhere is not seen. -/
theorem of_confined {others : List EntityId} (h : Confined others s t) (hdisj : ids.Disjoint others) : AgreeOn ids s t :=
  fun id hid => (h.frame id fun hm => hdisj hid hm).symm

end Snapshot.AgreeOn

namespace Constraint

variable {settings : SolverSettings} {c : Constraint} {snapshot snapshot' : Snapshot}

theorem correction_eq_ok {changes : List Subject} :
    c.correction settings snapshot = .ok changes ↔
      ∃ r, c.relation? snapshot = .ok r ∧ r.correction settings = .ok changes := by
  simp only [correction, bind_eq_ok, mapError_eq_ok]

theorem step_eq_ok :
    c.step settings snapshot = .ok snapshot' ↔
      ∃ changes, c.correction settings snapshot = .ok changes ∧
        snapshot.insertAll (changes.map fun s => (s.id, s.entity)) = snapshot' := by
  simp only [step, bind_eq_ok, pure_eq_ok]

/-- **A corrective step changes nothing but entities of its constraint, and never their shape.** -/
theorem step_confined (h : c.step settings snapshot = .ok snapshot') :
    Snapshot.Confined c.entities snapshot snapshot' := by
  obtain ⟨changes, hc, rfl⟩ := step_eq_ok.mp h
  obtain ⟨r, hr, hc⟩ := correction_eq_ok.mp hc
  refine (Snapshot.Confined.refl _ _).insertAll fun e he => ?_
  obtain ⟨s', hs', rfl⟩ := List.mem_map.mp he
  obtain ⟨s, hs, hid, hw⟩ := exists_source (Relation.correction_reworks settings hc) hs'
  obtain ⟨hmem, hget⟩ := finds_movers settings hr s hs
  simp only [hid, hget, hw.shape_eq, Option.map_some]
  exact ⟨hmem, trivial⟩

/-- **A corrective step reads nothing but entities of its constraint.** -/
theorem step_agree (settings : SolverSettings) {ids : List EntityId} {other : Snapshot} (hsub : c.entities ⊆ ids)
    (h : snapshot.AgreeOn ids other) :
    (∃ e, c.step settings snapshot = .error e ∧ c.step settings other = .error e) ∨
    ∃ s t, c.step settings snapshot = .ok s ∧ c.step settings other = .ok t ∧ s.AgreeOn ids t := by
  rw [step, step, correction_congr (h.mono hsub)]
  cases c.correction settings other with
  | error e => exact .inl ⟨e, rfl, rfl⟩
  | ok changes => exact .inr ⟨_, _, rfl, rfl, h.insertAll _⟩

end Constraint

end Drafting
