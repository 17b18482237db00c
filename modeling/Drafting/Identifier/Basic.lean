import Drafting.Identifier.Uuid

/-! The identifiers of a drawing: one kind for entities, one for constraints. -/
namespace Drafting

/-- Names an entity of the drawing; given out by whoever owns the drawing. -/
structure EntityId where
  uuid : Uuid
  deriving DecidableEq, Repr, Inhabited

/-- Names a constraint for as long as it lives. -/
structure ConstraintId where
  uuid : Uuid
  deriving DecidableEq, Repr, Inhabited

/-- The entity identifier that belongs to a name. -/
def EntityId.named (name : String) : EntityId := ⟨.named .objects name.toUTF8.toList⟩

def EntityId.text (id : EntityId) : String := id.uuid.text

def ConstraintId.text (id : ConstraintId) : String := id.uuid.text

/-- Entities in the order of their identifiers. -/
def EntityId.sorted (ids : List EntityId) : List EntityId := ids.mergeSort fun a b => a.uuid.bits ≤ b.uuid.bits

/-- **Rows with the same entities are the same row when they are sorted.** -/
theorem EntityId.isPerm_eq_sorted (a b : List EntityId) : a.isPerm b = decide (sorted a = sorted b) := by
  have hsorted (ids : List EntityId) : (sorted ids).Pairwise fun a b => decide (a.uuid.bits ≤ b.uuid.bits) = true := by
    refine List.pairwise_mergeSort (fun a b c hab hbc => ?_) (fun a b => ?_) ids
    · exact decide_eq_true (BitVec.le_trans (of_decide_eq_true hab) (of_decide_eq_true hbc))
    · rw [Bool.or_eq_true, decide_eq_true_iff, decide_eq_true_iff]
      exact BitVec.le_total ..
  rw [Bool.eq_iff_iff, List.isPerm_iff, decide_eq_true_iff]
  constructor
  · intro h
    have hperm : (sorted a).Perm (sorted b) := (List.mergeSort_perm ..).trans (h.trans (List.mergeSort_perm ..).symm)
    refine hperm.eq_of_pairwise (fun ⟨⟨x⟩⟩ ⟨⟨y⟩⟩ _ _ hxy hyx => ?_) (hsorted a) (hsorted b)
    have hbits : x = y := BitVec.le_antisymm (of_decide_eq_true hxy) (of_decide_eq_true hyx)
    rw [hbits]
  · intro h
    have hperm : (sorted a).Perm b := h ▸ List.mergeSort_perm ..
    exact (List.mergeSort_perm ..).symm.trans hperm

end Drafting
