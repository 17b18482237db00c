import Drafting.Entity.Update
import Drafting.Proofs.Number.Equality

/-! Entities made of numbers.

What is not a number does not even compare equal to itself, so an entity with such
a coordinate seems to have changed when it has not. Where every field is a number
this does not happen: an entity has no update to itself (`Entity.diff_self`), and
so no part of a snapshot has changes to the whole of it
(`Snapshot.changes_restrict_self`). -/
namespace Drafting

/-- Both coordinates are numbers. -/
def Point.IsNumeric (p : Point) : Prop := p.x.isNaN = false ∧ p.y.isNaN = false

instance (p : Point) : Decidable p.IsNumeric := inferInstanceAs (Decidable (_ ∧ _))

/-- Every field is a number, or made of numbers. -/
def Entity.IsNumeric : Entity → Prop
  | .point p => p.IsNumeric
  | .line s e => s.IsNumeric ∧ e.IsNumeric
  | .circle c r => c.IsNumeric ∧ r.isNaN = false
  | .arc c r s e => c.IsNumeric ∧ r.isNaN = false ∧ s.isNaN = false ∧ e.isNaN = false
  | .rectangle p w h => p.IsNumeric ∧ w.isNaN = false ∧ h.isNaN = false
  | .polyline ps _ => ∀ p ∈ ps, p.IsNumeric

instance : DecidablePred Entity.IsNumeric
  | .point p => inferInstanceAs (Decidable p.IsNumeric)
  | .line .. | .circle .. | .arc .. | .rectangle .. => inferInstanceAs (Decidable (_ ∧ _))
  | .polyline ps _ => inferInstanceAs (Decidable (∀ p ∈ ps, p.IsNumeric))

/-- Those of the entities that the snapshot has are numeric. -/
def Snapshot.NumericOn (ids : List EntityId) (s : Snapshot) : Prop := ∀ id ∈ ids, ∀ e ∈ s.get? id, e.IsNumeric

/-- Every entity is numeric. -/
def Snapshot.IsNumeric (s : Snapshot) : Prop := ∀ e ∈ s.values, e.IsNumeric

instance (s : Snapshot) : Decidable s.IsNumeric := inferInstanceAs (Decidable (∀ e ∈ s.values, e.IsNumeric))

namespace Point

theorem agrees_self {p : Point} (h : p.IsNumeric) : p.agrees p = true := by
  simp only [agrees, Number.beq_self h.1, Number.beq_self h.2, Bool.and_self]

theorem allAgree_self {ps : List Point} (h : ∀ p ∈ ps, p.IsNumeric) : allAgree ps ps = true := by
  induction ps with
  | nil => rfl
  | cons p rest ih =>
    obtain ⟨hp, hrest⟩ := List.forall_mem_cons.mp h
    simp only [allAgree, agrees_self hp, ih hrest, Bool.and_self]

end Point

namespace Entity

theorem changed_self {α : Type} {agrees : α → α → Bool} {a : α} (h : agrees a a = true) : changed agrees a a = none := by
  rw [changed, if_pos h]

theorem changed_self_point {p : Point} (h : p.IsNumeric) : changed Point.agrees p p = none :=
  changed_self (Point.agrees_self h)

theorem changed_self_number {x : Float} (h : x.isNaN = false) : changed (· == ·) x x = none :=
  changed_self (Number.beq_self h)

/-- Compared to itself, a numeric entity has no field to tell of. -/
theorem difference?_self {e : Entity} (h : e.IsNumeric) : ∃ u, e.difference? e = some u ∧ u.isEmpty = true := by
  cases e with
  | point p =>
    refine ⟨.point none, ?_, rfl⟩
    rw [difference?, changed_self_point h]
  | line s e =>
    refine ⟨.line none none, ?_, rfl⟩
    rw [difference?, changed_self_point h.1, changed_self_point h.2]
  | circle c r =>
    refine ⟨.circle none none, ?_, rfl⟩
    -- How numbers are compared has a private name, so it is written out before it is rewritten.
    show some (EntityUpdate.circle (changed Point.agrees c c) (changed (· == ·) r r)) = _
    rw [changed_self_point h.1, changed_self_number h.2]
  | arc c r s e =>
    obtain ⟨hc, hr, hs, he⟩ := h
    refine ⟨.arc none none none none, ?_, rfl⟩
    show some (EntityUpdate.arc (changed Point.agrees c c) (changed (· == ·) r r) (changed (· == ·) s s)
      (changed (· == ·) e e)) = _
    rw [changed_self_point hc, changed_self_number hr, changed_self_number hs, changed_self_number he]
  | rectangle p w t =>
    obtain ⟨hp, hw, ht⟩ := h
    refine ⟨.rectangle none none none, ?_, rfl⟩
    show some (EntityUpdate.rectangle (changed Point.agrees p p) (changed (· == ·) w w) (changed (· == ·) t t)) = _
    rw [changed_self_point hp, changed_self_number hw, changed_self_number ht]
  | polyline ps c =>
    refine ⟨.polyline none none, ?_, rfl⟩
    rw [difference?, changed_self (Point.allAgree_self h), changed_self (beq_self_eq_true c)]

theorem diff_self {e : Entity} (h : e.IsNumeric) : e.diff e = none := by
  obtain ⟨u, hu, hempty⟩ := difference?_self h
  simp [diff, hu, hempty]

end Entity

namespace Snapshot

/-- A part of a snapshot has nothing to tell of the whole. -/
theorem changes_restrict_self {ids : List EntityId} {s : Snapshot} (h : s.NumericOn ids) :
    Snapshot.changes (s.restrict ids) s = .empty := by
  refine Table.filterMap_eq_empty fun id e he => ?_
  rw [Table.get?_restrict] at he
  split at he
  · rename_i hid
    rw [he, Option.bind_some]
    exact Entity.diff_self (h id hid e he)
  · cases he

theorem changes_self {s : Snapshot} (h : s.IsNumeric) : s.changes s = .empty := by
  refine Table.filterMap_eq_empty fun id e he => ?_
  rw [he, Option.bind_some]
  exact Entity.diff_self (h e (Table.mem_values_iff.mpr ⟨id, he⟩))

end Snapshot

end Drafting
