import Drafting.Proofs.Solving.Step
import Drafting.Solving.Pass

/-! What one turn changes and what it depends on.

What every step keeps, a whole course keeps (`Course.of_preserves`), the frame of
a step among others (`Course.of_confined`). Since an attempt notes down the
entities of its constraint first, that is enough for the restore after a failure to
be exact (`Snapshot.restored_confined`): whatever the steps wrote, the geometry is
the old one again (`Constraint.attempt_of_error`).

`Constraint.attempt_alike` is the same for reading. On snapshots with the same
keys that agree around the constraint, an attempt has the same outcome and
geometries that agree there. -/
namespace Drafting

/-! ### Courses -/

namespace Course

variable {settings : SolverSettings} {c : Constraint}

section Preservation
variable {P : Snapshot → Prop} (hstep : ∀ s t, P s → c.step settings s = .ok t → P t)
include hstep

theorem pursue_preserves (budget : Nat) {now : Visit} (earlier : List Visit) (h : P now.geometry) :
    P (pursue settings c budget now earlier).geometry := by
  induction budget generalizing now earlier with
  | zero => exact h
  | succ budget ih =>
    unfold pursue
    split
    · split
      · exact h
      · rename_i geometry hnext
        have hgeometry : P geometry := hstep _ _ h hnext
        split
        · exact hgeometry
        · split
          · exact hgeometry
          · exact ih _ hgeometry
    · exact h

/-- What every step keeps, a course keeps, however it ends. -/
theorem of_preserves {snapshot : Snapshot} (h : P snapshot) : P (of settings c snapshot).geometry := by
  unfold of
  split
  · exact h
  · exact pursue_preserves hstep _ _ h

end Preservation

/-- A course stays with the entities of its constraint. -/
theorem of_confined (settings : SolverSettings) (c : Constraint) (snapshot : Snapshot) :
    Snapshot.Confined c.entities snapshot (of settings c snapshot).geometry :=
  of_preserves (fun _ _ hs hnext => hs.trans (Constraint.step_confined hnext)) (.refl _ snapshot)

/-- Courses that measure the same, end in the same way, and get to geometries that agree on some
entities. -/
structure Alike (ids : List EntityId) (a b : Course) : Prop where
  residuals : a.visits.map Visit.residual = b.visits.map Visit.residual
  ending : a.ending = b.ending
  geometry : a.geometry.AgreeOn ids b.geometry

theorem Alike.steps_eq {ids : List EntityId} {a b : Course} (h : Alike ids a b) : a.steps = b.steps := by
  have hlength : a.visits.length = b.visits.length := by simpa using congrArg List.length h.residuals
  rw [steps, steps, h.ending, hlength]

theorem Alike.events_eq {ids : List EntityId} {a b : Course} (h : Alike ids a b) : a.events c = b.events c := by
  have hsteps := h.steps_eq
  obtain ⟨visits, ending, geometry⟩ := a
  obtain ⟨visits', ending', geometry'⟩ := b
  obtain ⟨hresiduals, rfl : ending = ending', _⟩ := h
  unfold events
  rw [hsteps]
  rcases visits with _ | ⟨last, _ | ⟨before, rest⟩⟩ <;> rcases visits' with _ | ⟨last', _ | ⟨before', rest'⟩⟩ <;>
    simp only [List.map_nil, List.map_cons, List.cons.injEq, reduceCtorEq, and_false] at hresiduals
  · rfl
  · cases ending <;> simp only [hresiduals]
  · cases ending <;> simp only [hresiduals]

section Locality
variable {ids : List EntityId} (hsub : c.entities ⊆ ids)
include hsub

theorem pursue_alike (budget : Nat) {now now' : Visit} {earlier earlier' : List Visit}
    (hgeometry : now.geometry.AgreeOn ids now'.geometry) (hresidual : now.residual = now'.residual)
    (hearlier : earlier.map Visit.residual = earlier'.map Visit.residual) :
    Alike ids (pursue settings c budget now earlier) (pursue settings c budget now' earlier') := by
  induction budget generalizing now now' earlier earlier' with
  | zero =>
    refine ⟨?_, by simp only [pursue, hresidual], hgeometry⟩
    simp only [pursue, List.map_cons, hresidual, hearlier]
  | succ budget ih =>
    have hvisits : (now :: earlier).map Visit.residual = (now' :: earlier').map Visit.residual := by
      rw [List.map_cons, List.map_cons, hresidual, hearlier]
    unfold pursue
    rw [hresidual]
    by_cases hreached : settings.tolerance ≤ now'.residual
    · rw [if_pos hreached, if_pos hreached]
      obtain ⟨e, hs, ht⟩ | ⟨s, t, hs, ht, hagree⟩ := Constraint.step_agree settings hsub hgeometry
      · rw [hs, ht]
        exact ⟨hvisits, rfl, hgeometry⟩
      · rw [hs, ht]
        simp only [Constraint.residual_congr (hagree.mono hsub)]
        cases c.residual t with
        | error e => exact ⟨hvisits, rfl, hagree⟩
        | ok residual =>
          simp only
          split
          · exact ⟨congrArg (residual :: ·) hvisits, rfl, hagree⟩
          · exact ih hagree rfl hvisits
    · rw [if_neg hreached, if_neg hreached]
      exact ⟨hvisits, rfl, hgeometry⟩

/-- A course reads no entities but those of its constraint. -/
theorem of_alike (settings : SolverSettings) {snapshot other : Snapshot} (h : snapshot.AgreeOn ids other) :
    Alike ids (of settings c snapshot) (of settings c other) := by
  unfold of
  rw [Constraint.residual_congr (h.mono hsub)]
  cases c.residual other with
  | error e => exact ⟨rfl, rfl, h⟩
  | ok residual => exact pursue_alike hsub _ h rfl rfl

end Locality

end Course

/-! ### The outcome of a turn -/

/-- Putting back what was noted down undoes every change to those entities. -/
theorem Snapshot.restored_confined {ids : List EntityId} {s t : Snapshot} (h : Confined ids s t) :
    restored (s.restrict ids) t = s := by
  have hknown : ∀ e ∈ (s.restrict ids).entries, e.1 ∈ t := by
    intro e he
    have hget := Table.get?_eq_some_iff.mpr he
    rw [Table.get?_restrict] at hget
    split at hget
    · rw [h.mem_iff, Table.mem_iff, hget]
      rfl
    · cases hget
  refine Table.ext_get? ((Table.keys_insertAll_of_mem hknown).trans h.keys) fun id => ?_
  rw [restored, Table.get?_insertAll_entries, Table.get?_restrict]
  split
  · cases hs : s.get? id with
    | some e => rfl
    | none => simpa [hs] using h.shape id
  · rename_i hid
    exact h.frame id hid

theorem Snapshot.changes_congr {s t t' : Snapshot} (h : ∀ id ∈ s, t.get? id = t'.get? id) : s.changes t = s.changes t' :=
  Table.filterMap_congr fun id e he => by rw [h id (Table.mem_iff.mpr (by rw [he]; rfl))]

/-- Outcomes that differ in the geometry at most, and there not on some entities. -/
structure Attempt.Alike (ids : List EntityId) (a b : Attempt) : Prop where
  constraint : a.constraint = b.constraint
  updates : a.updates = b.updates
  iterations : a.iterations = b.iterations
  error : a.error = b.error
  log : a.log = b.log
  geometry : a.geometry.AgreeOn ids b.geometry

namespace Constraint

variable {observer : Observer} {settings : SolverSettings} {c : Constraint} {snapshot : Snapshot}

/-- What a turn comes to. The restored geometry is the one that the turn began with. -/
theorem attempt_eq (observer : Observer) (settings : SolverSettings) (c : Constraint) (snapshot : Snapshot) :
    c.attempt observer settings snapshot =
      match observer.hear ((Course.of settings c snapshot).events c), (Course.of settings c snapshot).ending.error? with
      | (heard, some reason), _ =>
        ⟨c, .empty, 0, some (.internal reason), snapshot, heard ++ [.interrupted c.id reason]⟩
      | (heard, none), some e => ⟨c, .empty, .ofNat (Course.of settings c snapshot).steps, some e, snapshot, heard⟩
      | (heard, none), none =>
        ⟨c, Snapshot.changes (snapshot.restrict c.entities) (Course.of settings c snapshot).geometry,
          .ofNat (Course.of settings c snapshot).steps, none, (Course.of settings c snapshot).geometry, heard⟩ := by
  have hback := Snapshot.restored_confined (Course.of_confined settings c snapshot)
  simp only [attempt, hback]
  rcases observer.hear ((Course.of settings c snapshot).events c) with ⟨heard, refusal⟩
  cases refusal <;> cases (Course.of settings c snapshot).ending.error? <;> rfl

@[simp] theorem attempt_constraint (observer : Observer) (settings : SolverSettings) (c : Constraint)
    (snapshot : Snapshot) : (c.attempt observer settings snapshot).constraint = c := by
  rw [attempt_eq]
  split <;> rfl

/-- **After an error the geometry is what it was before the first step, and there are no updates.** -/
theorem attempt_of_error (h : (c.attempt observer settings snapshot).error.isSome) :
    (c.attempt observer settings snapshot).geometry = snapshot ∧
      (c.attempt observer settings snapshot).updates = .empty := by
  rw [attempt_eq] at h ⊢
  split at h
  · exact ⟨rfl, rfl⟩
  · exact ⟨rfl, rfl⟩
  · cases h

/-- What every step of a constraint keeps, its turn keeps. -/
theorem attempt_preserves (observer : Observer) {P : Snapshot → Prop}
    (hstep : ∀ s t, P s → c.step settings s = .ok t → P t) (h : P snapshot) :
    P (c.attempt observer settings snapshot).geometry := by
  rw [attempt_eq]
  split
  · exact h
  · exact h
  · exact Course.of_preserves hstep h

/-- A turn changes nothing but entities of its constraint, and never their shape. -/
theorem attempt_confined (observer : Observer) (settings : SolverSettings) (c : Constraint) (snapshot : Snapshot) :
    Snapshot.Confined c.entities snapshot (c.attempt observer settings snapshot).geometry :=
  attempt_preserves observer (fun _ _ hs hnext => hs.trans (step_confined hnext)) (.refl _ snapshot)

/-- **A turn depends on nothing but the entities of its constraint.** -/
theorem attempt_alike (observer : Observer) (settings : SolverSettings) {ids : List EntityId} {other : Snapshot} (hsub : c.entities ⊆ ids)
    (hkeys : snapshot.keys = other.keys) (h : snapshot.AgreeOn ids other) :
    (c.attempt observer settings snapshot).Alike ids (c.attempt observer settings other) := by
  have hcourse := Course.of_alike hsub settings h
  have hbefore : snapshot.restrict c.entities = other.restrict c.entities := Table.restrict_congr hkeys (h.mono hsub)
  rw [attempt_eq, attempt_eq, hbefore, hcourse.events_eq, hcourse.ending, hcourse.steps_eq]
  split
  · exact ⟨rfl, rfl, rfl, rfl, rfl, h⟩
  · exact ⟨rfl, rfl, rfl, rfl, rfl, h⟩
  · refine ⟨rfl, Snapshot.changes_congr fun id hid => ?_, rfl, rfl, rfl, hcourse.geometry⟩
    have hmem : id ∈ (other.restrict c.entities).keys := hid
    rw [Table.keys_restrict, List.mem_filter, decide_eq_true_iff] at hmem
    exact hcourse.geometry id (hsub hmem.2)

end Constraint

end Drafting
