import Drafting.Entity.Update
import Drafting.Proofs.Number.Equality

/-! Replaying updates on a copy.

Someone who only sees the updates of a drawing keeps a copy of it. An update
leaves out fields that compare equal, so the copy may hold another zero there:
the copy is a *twin*. `Entity.twin_diff` and `Snapshot.twin_merge_changes` say that
this is all that can ever happen: merging the changes into a twin of the old
snapshot gives a twin of the new one, whatever was left out before. -/
namespace Drafting

/-! ### Twins -/

/-- Points with twin coordinates. -/
def Point.Twin (p q : Point) : Prop := Number.Twin p.x q.x ∧ Number.Twin p.y q.y

theorem Point.Twin.refl (p : Point) : p.Twin p := ⟨.refl _, .refl _⟩

theorem Point.Twin.trans {p q r : Point} (h : p.Twin q) (h' : q.Twin r) : p.Twin r :=
  ⟨h.1.trans h'.1, h.2.trans h'.2⟩

theorem Point.twin_of_agrees {p q : Point} (h : p.agrees q = true) : p.Twin q := by
  simp only [Point.agrees, Bool.and_eq_true] at h
  exact ⟨.inr h.1, .inr h.2⟩

/-- Rows of points that are twins place by place. -/
abbrev Point.Twins : List Point → List Point → Prop := List.Forall₂ Point.Twin

theorem Point.twins_refl (ps : List Point) : Point.Twins ps ps := List.forall₂_same.mpr fun p _ => .refl p

theorem Point.twins_trans {ps qs rs : List Point} (h : Point.Twins ps qs) (h' : Point.Twins qs rs) :
    Point.Twins ps rs := by
  induction h generalizing rs with
  | nil => exact h'
  | cons hp _ ih =>
    cases h' with
    | cons hq hqs => exact .cons (hp.trans hq) (ih hqs)

theorem Point.twins_of_allAgree {ps qs : List Point} (h : Point.allAgree ps qs = true) : Point.Twins ps qs := by
  induction ps generalizing qs with
  | nil =>
    cases qs with
    | nil => exact .nil
    | cons q qs => simp [Point.allAgree] at h
  | cons p ps ih =>
    cases qs with
    | nil => simp [Point.allAgree] at h
    | cons q qs =>
      simp only [Point.allAgree, Bool.and_eq_true] at h
      exact .cons (Point.twin_of_agrees h.1) (ih h.2)

/-- Entities of one kind whose fields are twins. -/
def Entity.Twin : Entity → Entity → Prop
  | .point p, .point p' => p.Twin p'
  | .line s e, .line s' e' => s.Twin s' ∧ e.Twin e'
  | .circle c r, .circle c' r' => c.Twin c' ∧ Number.Twin r r'
  | .arc c r s e, .arc c' r' s' e' => c.Twin c' ∧ Number.Twin r r' ∧ Number.Twin s s' ∧ Number.Twin e e'
  | .rectangle p w h, .rectangle p' w' h' => p.Twin p' ∧ Number.Twin w w' ∧ Number.Twin h h'
  | .polyline ps c, .polyline ps' c' => Point.Twins ps ps' ∧ c = c'
  | _, _ => False

/-- Snapshots of the same entities, each a twin of the other's. -/
structure Snapshot.Twin (s t : Snapshot) : Prop where
  keys : s.keys = t.keys
  entities : ∀ {id : EntityId} {e e' : Entity}, s.get? id = some e → t.get? id = some e' → e.Twin e'

/-! ### Entities -/

namespace Entity

theorem Twin.refl (e : Entity) : e.Twin e := by
  cases e with
  | point p => exact Point.Twin.refl p
  | line s e => exact ⟨.refl s, .refl e⟩
  | circle c r => exact ⟨.refl c, .refl r⟩
  | arc c r s e => exact ⟨.refl c, .refl r, .refl s, .refl e⟩
  | rectangle p w h => exact ⟨.refl p, .refl w, .refl h⟩
  | polyline ps c => exact ⟨Point.twins_refl ps, rfl⟩

/-- A field that is given its new value only if that does not agree with the old one. -/
theorem twin_changed {α : Type} {agrees : α → α → Bool} {Twin : α → α → Prop} {mine old new : α}
    (refl : Twin new new) (trans : Twin mine old → Twin old new → Twin mine new)
    (of_agrees : agrees old new = true → Twin old new) (h : Twin mine old) :
    Twin ((changed agrees old new).getD mine) new := by
  unfold changed
  split
  · rename_i hagree
    exact trans h (of_agrees hagree)
  · exact refl

theorem twin_changed_point {mine old new : Point} (h : mine.Twin old) :
    ((changed Point.agrees old new).getD mine).Twin new :=
  twin_changed (.refl _) .trans Point.twin_of_agrees h

theorem twin_changed_number {mine old new : Float} (h : Number.Twin mine old) :
    Number.Twin ((changed (· == ·) old new).getD mine) new :=
  twin_changed (.refl _) .trans .inr h

theorem apply_of_isEmpty (e : Entity) {u : EntityUpdate} (h : u.isEmpty = true) : e.apply u = e := by
  cases u <;> simp only [EntityUpdate.isEmpty, Bool.and_eq_true, Option.isNone_iff_eq_none] at h <;>
    cases e <;> simp [apply, h]

theorem difference?_of_kind {old new : Entity} (h : old.kind = new.kind) : (old.difference? new).isSome := by
  cases old <;> cases new <;> first | rfl | cases h

/-- The update between two entities takes a twin of the old one to a twin of the new one. -/
theorem twin_apply {mine old new : Entity} {u : EntityUpdate} (h : mine.Twin old)
    (hu : old.difference? new = some u) : (mine.apply u).Twin new := by
  cases old <;> cases new <;> cases hu <;> cases mine <;> try exact h.elim
  case point => exact twin_changed_point h
  case line => exact ⟨twin_changed_point h.1, twin_changed_point h.2⟩
  case circle => exact ⟨twin_changed_point h.1, twin_changed_number h.2⟩
  case arc =>
    exact ⟨twin_changed_point h.1, twin_changed_number h.2.1, twin_changed_number h.2.2.1,
      twin_changed_number h.2.2.2⟩
  case rectangle => exact ⟨twin_changed_point h.1, twin_changed_number h.2.1, twin_changed_number h.2.2⟩
  case polyline =>
    exact ⟨twin_changed (Point.twins_refl _) Point.twins_trans Point.twins_of_allAgree h.1,
      twin_changed rfl .trans eq_of_beq h.2⟩

theorem twin_diff {mine old new : Entity} (h : mine.Twin old) (hk : old.kind = new.kind) :
    (((old.diff new).map mine.apply).getD mine).Twin new := by
  obtain ⟨u, hu⟩ := Option.isSome_iff_exists.mp (difference?_of_kind hk)
  have htwin := twin_apply h hu
  simp only [diff, hu, Option.filter_some]
  by_cases he : u.isEmpty
  · rw [apply_of_isEmpty mine he] at htwin
    simpa [he] using htwin
  · simpa [he] using htwin

theorem diff_ne_empty {old new : Entity} {u : EntityUpdate} (h : old.diff new = some u) : u.isEmpty = false := by
  simpa using (Option.filter_eq_some_iff.mp h).2

end Entity

/-! ### Snapshots -/

namespace Snapshot

theorem Twin.refl (s : Snapshot) : s.Twin s := by
  refine ⟨rfl, fun {id e e'} h h' => ?_⟩
  rw [h, Option.some.injEq] at h'
  exact h' ▸ .refl e

theorem merge_of_isEmpty (s : Snapshot) {batch : Batch} (h : batch.isEmpty = true) : s.merge batch = s := by
  refine Table.ext_get? (keys_merge s batch) fun id => ?_
  have hnone : batch.get? id = none := by
    have hentries : batch.entries = [] := List.isEmpty_iff.mp h
    rw [Table.get?, hentries]
    rfl
  simp [get?_merge, hnone]

/-- A batch may leave out what did not change at all, and has to bring the update of everything else. -/
theorem twin_merge {mine old new : Snapshot} {batch : Batch} (h : mine.Twin old) (hkeys : new.keys = old.keys)
    (hbatch : ∀ {id : EntityId} {e e' : Entity}, old.get? id = some e → new.get? id = some e' →
      e = e' ∧ batch.get? id = none ∨ e.kind = e'.kind ∧ batch.get? id = e.diff e') :
    (mine.merge batch).Twin new := by
  refine ⟨by rw [keys_merge, h.keys, hkeys], ?_⟩
  intro id e e' he he'
  rw [get?_merge] at he
  obtain ⟨m, hm, rfl⟩ := Option.map_eq_some_iff.mp he
  have hold : id ∈ old := by
    show id ∈ old.keys
    rw [← h.keys]
    exact Table.mem_iff.mpr (by rw [hm]; rfl)
  obtain ⟨o, ho⟩ := Option.isSome_iff_exists.mp (Table.mem_iff.mp hold)
  obtain ⟨rfl, hnone⟩ | ⟨hkind, hdiff⟩ := hbatch ho he'
  · rw [hnone]
    exact h.entities hm ho
  · rw [hdiff]
    exact Entity.twin_diff (h.entities hm ho) hkind

theorem twin_merge_changes {mine old new : Snapshot} (h : mine.Twin old) (hkeys : new.keys = old.keys)
    (hkind : ∀ {id : EntityId} {e e' : Entity}, old.get? id = some e → new.get? id = some e' → e.kind = e'.kind) :
    (mine.merge (old.changes new)).Twin new := by
  refine twin_merge h hkeys fun {id e e'} he he' => .inr ⟨hkind he he', ?_⟩
  rw [get?_changes, he, Option.bind_some, he', Option.bind_some]

theorem changes_ne_empty {old new : Snapshot} {u : EntityUpdate} (h : u ∈ (old.changes new).values) :
    u.isEmpty = false := by
  obtain ⟨id, hu⟩ := Table.mem_values_iff.mp h
  rw [get?_changes] at hu
  obtain ⟨e, _, hu⟩ := Option.bind_eq_some_iff.mp hu
  obtain ⟨e', _, hu⟩ := Option.bind_eq_some_iff.mp hu
  exact Entity.diff_ne_empty hu

end Snapshot

end Drafting
