import Drafting.Proofs.Entity.Numeric
import Drafting.Proofs.Solving.Pass

/-! What stays where it is.

A constraint gives way at places that its kind fixes (`Constraint.movedPlaces`); what
stands elsewhere is an anchor. The places of a tangent pair depend on which of the two
is the line, and since no step changes the kind of an entity, they are the same in the
whole course of an attempt and in the whole pass. So a turn is confined to the movable
entities of its constraint, and a pass to those of its active constraints
(`Solver.run_confined_movable`): an anchor of one constraint may be moved by another,
but what no active constraint may move is where it was. -/
namespace Drafting

/-- Where a tangent pair gives way: the line gives way to the circle, and of two circles the second. -/
def tangentPlaces : Option EntityKind → Option EntityKind → List Nat
  | some .line, some .circle | some .line, some .arc => [0]
  | some .circle, some .line | some .circle, some .circle | some .circle, some .arc => [1]
  | some .arc, some .line | some .arc, some .circle | some .arc, some .arc => [1]
  | _, _ => []

namespace Constraint

/-- The kind of the entity at a place. -/
def kindAt? (snapshot : Snapshot) (c : Constraint) (place : Nat) : Option EntityKind :=
  c.entities[place]?.bind snapshot.kind?

/-- The places where a constraint gives way. -/
def movedPlaces (settings : SolverSettings) (snapshot : Snapshot) (c : Constraint) : List Nat :=
  match c.kind with
  | .horizontal | .vertical | .length | .radius | .diameter | .fix | .midpoint => [0]
  | .parallel | .perpendicular | .collinear | .equalLength | .angle | .offsetDistance | .concentric | .equalRadius
  | .symmetric => [1]
  | .coincident | .pattern => List.range' 1 (c.entities.length - 1)
  | .tangent => tangentPlaces (c.kindAt? snapshot 0) (c.kindAt? snapshot 1)
  | .distance =>
    match settings.distanceMode with
    | .moveSecond => [1]
    | .symmetric => [0, 1]

/-- The entities at these places. -/
def movable (settings : SolverSettings) (snapshot : Snapshot) (c : Constraint) : List EntityId :=
  (c.movedPlaces settings snapshot).filterMap (c.entities[·]?)

variable {settings : SolverSettings} {c : Constraint} {s t : Snapshot}

theorem mem_movable {id : EntityId} :
    id ∈ c.movable settings s ↔ ∃ place ∈ c.movedPlaces settings s, c.entities[place]? = some id :=
  List.mem_filterMap

/-- The places depend on the kinds of entities only. -/
theorem movable_congr (settings : SolverSettings) (c : Constraint) (h : ∀ id, t.kind? id = s.kind? id) :
    c.movable settings t = c.movable settings s := by
  have hkinds : t.kind? = s.kind? := funext h
  simp only [movable, movedPlaces, kindAt?, hkinds]

/-! ### Steps -/

/-- The one that gives way, where there is only one place for it. -/
theorem movable_of_only {place : Nat} {only : Subject} (hplaces : c.movedPlaces settings s = [place])
    (hid : c.entities[place]? = some only.id) : ∀ mover ∈ [only], mover.id ∈ c.movable settings s :=
  List.forall_mem_singleton.mpr (mem_movable.mpr ⟨place, hplaces ▸ List.mem_cons_self, hid⟩)

theorem movable_of_others (hk : c.kind = .coincident ∨ c.kind = .pattern) {subjects : List Subject}
    (h : c.others s = .ok subjects) : ∀ mover ∈ subjects, mover.id ∈ c.movable settings s := by
  intro mover hmover
  obtain ⟨i, hi, hget⟩ := List.mem_iff_getElem.mp (mem_others h mover hmover).1
  rw [List.length_drop] at hi
  have hplace : 1 + i ∈ c.movedPlaces settings s := by
    have hrange : 1 + i ∈ List.range' 1 (c.entities.length - 1) := List.mem_range'_1.mpr ⟨by omega, by omega⟩
    rcases hk with hk | hk <;> simpa only [movedPlaces, hk] using hrange
  refine mem_movable.mpr ⟨1 + i, hplace, ?_⟩
  rw [← List.getElem?_drop, ← hget]
  exact List.getElem?_eq_getElem _

theorem kindAt?_of_subjectAt {place : Nat} {mover : Subject} (h : c.subjectAt s place = .ok mover) :
    c.kindAt? s place = some mover.entity.kind := by
  obtain ⟨hid, hget⟩ := subjectAt_eq_ok.mp h
  rw [kindAt?, hid, Option.bind_some, Snapshot.kind?, hget, Option.map_some]

/-- The line of a tangent pair gives way, or else the second circle. -/
theorem movable_of_tangentPair (hk : c.kind = .tangent) {first second : Subject} (hfirst : c.subjectAt s 0 = .ok first)
    (hsecond : c.subjectAt s 1 = .ok second) {r : Relation} (h : c.tangentPair first second = .ok r) :
    ∀ mover ∈ r.movers settings, mover.id ∈ c.movable settings s := by
  have hplaces : c.movedPlaces settings s = tangentPlaces (some first.entity.kind) (some second.entity.kind) := by
    simp only [movedPlaces, hk, kindAt?_of_subjectAt hfirst, kindAt?_of_subjectAt hsecond]
  have hmovable {place : Nat} {mover : Subject} (hmover : c.subjectAt s place = .ok mover)
      (hplace : place ∈ tangentPlaces (some first.entity.kind) (some second.entity.kind)) :
      mover.id ∈ c.movable settings s :=
    mem_movable.mpr ⟨place, hplaces ▸ hplace, (subjectAt_eq_ok.mp hmover).1⟩
  obtain ⟨id, e⟩ := first
  obtain ⟨id', e'⟩ := second
  cases e <;> cases e' <;> cases h <;> simp [Relation.movers, Line.subject, Round.subject] <;>
    first | exact hmovable hsecond List.mem_cons_self | exact hmovable hfirst List.mem_cons_self

/-- What a relation moves stands at a place where its constraint gives way. -/
theorem movers_movable {r : Relation} (h : c.relation? s = .ok r) :
    ∀ mover ∈ r.movers settings, mover.id ∈ c.movable settings s := by
  unfold relation? at h
  cases hk : c.kind <;> simp only [hk, bind_eq_ok, pure_eq_ok] at h
  case horizontal | vertical =>
    obtain ⟨l, hl, rfl⟩ := h
    exact movable_of_only (by simp only [movedPlaces, hk]) (place_of_lineAt hl)
  case parallel | perpendicular | collinear | equalLength =>
    obtain ⟨l₁, _, l₂, h₂, rfl⟩ := h
    exact movable_of_only (by simp only [movedPlaces, hk]) (place_of_lineAt h₂)
  case tangent =>
    obtain ⟨s₁, h₁, s₂, h₂, hr⟩ := h
    exact movable_of_tangentPair hk h₁ h₂ hr
  case concentric | equalRadius =>
    obtain ⟨c₁, _, c₂, h₂, rfl⟩ := h
    exact movable_of_only (by simp only [movedPlaces, hk]) (place_of_roundAt h₂)
  case coincident =>
    obtain ⟨anchor, _, moved, hm, rfl⟩ := h
    exact movable_of_others (.inl hk) hm
  case symmetric =>
    obtain ⟨s₁, _, s₂, h₂, axis, _, rfl⟩ := h
    exact movable_of_only (by simp only [movedPlaces, hk]) (subjectAt_eq_ok.mp h₂).1
  case midpoint =>
    obtain ⟨first, hfirst, host, _, rfl⟩ := h
    exact movable_of_only (by simp only [movedPlaces, hk]) (subjectAt_eq_ok.mp hfirst).1
  case distance =>
    obtain ⟨target, _, s₁, h₁, s₂, h₂, rfl⟩ := h
    cases hmode : settings.distanceMode with
    | moveSecond =>
      simp only [Relation.movers, hmode]
      exact movable_of_only (by simp only [movedPlaces, hk, hmode]) (subjectAt_eq_ok.mp h₂).1
    | symmetric =>
      have hplaces : c.movedPlaces settings s = [0, 1] := by simp only [movedPlaces, hk, hmode]
      have hfirst : s₁.id ∈ c.movable settings s :=
        mem_movable.mpr ⟨0, by simp [hplaces], (subjectAt_eq_ok.mp h₁).1⟩
      have hsecond : s₂.id ∈ c.movable settings s :=
        mem_movable.mpr ⟨1, by simp [hplaces], (subjectAt_eq_ok.mp h₂).1⟩
      simp only [Relation.movers, hmode, List.forall_mem_cons]
      exact ⟨hfirst, hsecond, List.forall_mem_nil _⟩
  case angle | offsetDistance =>
    obtain ⟨target, _, l₁, _, l₂, h₂, rfl⟩ := h
    exact movable_of_only (by simp only [movedPlaces, hk]) (place_of_lineAt h₂)
  case radius | diameter =>
    obtain ⟨target, _, round, hr, rfl⟩ := h
    exact movable_of_only (by simp only [movedPlaces, hk]) (place_of_roundAt hr)
  case length =>
    obtain ⟨target, _, l, hl, rfl⟩ := h
    exact movable_of_only (by simp only [movedPlaces, hk]) (place_of_lineAt hl)
  case fix =>
    obtain ⟨target, _, moved, hm, rfl⟩ := h
    exact movable_of_only (by simp only [movedPlaces, hk]) (subjectAt_eq_ok.mp hm).1
  case pattern =>
    obtain ⟨offset, _, origin, _, moved, hm, rfl⟩ := h
    exact movable_of_others (.inr hk) hm

/-- A corrective step changes nothing but what its constraint may move. -/
theorem step_confined_movable (h : c.step settings s = .ok t) : Snapshot.Confined (c.movable settings s) s t := by
  have hconf := step_confined h
  refine ⟨hconf.keys, hconf.shape, fun id hid => ?_⟩
  obtain ⟨changes, hc, rfl⟩ := step_eq_ok.mp h
  obtain ⟨r, hr, hc⟩ := correction_eq_ok.mp hc
  refine Table.get?_insertAll_of_not_mem s fun hwritten => hid ?_
  rw [List.map_map, List.mem_map] at hwritten
  obtain ⟨changed, hchanged, rfl⟩ := hwritten
  obtain ⟨mover, hmover, hsame, _⟩ := exists_source (Relation.correction_reworks settings hc) hchanged
  show changed.id ∈ c.movable settings s
  rw [hsame]
  exact movers_movable hr mover hmover

/-- What may be moved is the same behind a step that changes nothing else. -/
theorem step_keeps_confined {l : List EntityId} (hsub : c.movable settings s ⊆ l) {u : Snapshot}
    (hs : Snapshot.Confined l s t) (h : c.step settings t = .ok u) : Snapshot.Confined l s u := by
  have hstep := step_confined_movable h
  rw [movable_congr settings c hs.kind?_eq] at hstep
  exact hs.trans (hstep.mono hsub)

end Constraint

/-! ### Turns and passes -/

/-- The entity is not there, or is made of numbers. -/
def Snapshot.NumericAt (s : Snapshot) (id : EntityId) : Prop := ∀ e ∈ s.get? id, e.IsNumeric

/-- What stays as it is and is made of numbers has no update. -/
theorem Snapshot.not_mem_changes {s t : Snapshot} {id : EntityId}
    (h : ∀ e, s.get? id = some e → e.IsNumeric ∧ t.get? id = some e) : id ∉ s.changes t := by
  rw [Table.mem_iff, get?_changes]
  cases he : s.get? id with
  | none => simp
  | some e =>
    obtain ⟨hnumeric, ht⟩ := h e he
    simp [ht, Entity.diff_self hnumeric]

section Turns
variable (observer : Observer) (settings : SolverSettings)

/-- A turn changes nothing but what its constraint may move. -/
theorem Constraint.attempt_confined_movable (c : Constraint) (snapshot : Snapshot) :
    Snapshot.Confined (c.movable settings snapshot) snapshot (c.attempt observer settings snapshot).geometry :=
  attempt_preserves observer (fun _ _ hs hnext => step_keeps_confined (fun _ hid => hid) hs hnext) (.refl _ snapshot)

/-- The updates of a turn are the changes that it leaves to the entities of the constraint, or there are none. -/
theorem Constraint.attempt_updates_cases (c : Constraint) (snapshot : Snapshot) :
    let own := c.attempt observer settings snapshot
    own.updates = .empty ∨ own.updates = Snapshot.changes (snapshot.restrict c.entities) own.geometry := by
  rw [attempt_eq]
  split
  · exact .inl rfl
  · exact .inl rfl
  · exact .inr rfl

/-- A turn has nothing to tell of what its constraint may not move. -/
theorem Constraint.not_mem_attempt_updates {c : Constraint} {snapshot : Snapshot} {id : EntityId}
    (hid : id ∉ c.movable settings snapshot) (h : snapshot.NumericAt id) :
    id ∉ (c.attempt observer settings snapshot).updates := by
  have hsame := (c.attempt_confined_movable observer settings snapshot).frame id hid
  rcases c.attempt_updates_cases observer settings snapshot with hnone | hchanges
  · rw [hnone]
    exact List.not_mem_nil
  · rw [hchanges]
    refine Snapshot.not_mem_changes fun e he => ?_
    rw [Table.get?_restrict] at he
    split at he
    · exact ⟨h e he, hsame.trans he⟩
    · cases he

theorem not_mem_attempts_updates {l : List Constraint} {snapshot : Snapshot} {id : EntityId}
    (hid : ∀ c ∈ l, id ∉ c.movable settings snapshot) (h : snapshot.NumericAt id) :
    ∀ a ∈ (attempts observer settings l snapshot).1, id ∉ a.updates := by
  induction l generalizing snapshot with
  | nil => exact List.forall_mem_nil _
  | cons c rest ih =>
    obtain ⟨hc, hrest⟩ := List.forall_mem_cons.mp hid
    have hconf := c.attempt_confined_movable observer settings snapshot
    have hsame := hconf.frame id hc
    refine List.forall_mem_cons.mpr ⟨c.not_mem_attempt_updates observer settings hc h, ih (fun d hd => ?_) ?_⟩
    · rw [Constraint.movable_congr settings d hconf.kind?_eq]
      exact hrest d hd
    · intro e he
      rw [hsame] at he
      exact h e he

end Turns

namespace Solver

variable (solver : Solver) (observer : Observer) {l : List Constraint} {snapshot : Snapshot} {id : EntityId}

/-- No active constraint may move the entity. -/
def Anchors (solver : Solver) (l : List Constraint) (snapshot : Snapshot) (id : EntityId) : Prop :=
  ∀ c ∈ l, c.active = true → id ∉ c.movable solver.settings snapshot

theorem run_frame (hid : solver.Anchors l snapshot id) :
    (solver.run observer l snapshot).geometry.get? id = snapshot.get? id := by
  let movable := (l.filter (·.active)).flatMap (·.movable solver.settings snapshot)
  have hconf : Snapshot.Confined movable snapshot (solver.run observer l snapshot).geometry := by
    refine solver.run_preserves observer l snapshot (fun c hc hactive s t hs hnext => ?_) (.refl _ snapshot)
    refine Constraint.step_keeps_confined (fun i hi => ?_) hs hnext
    exact List.mem_flatMap.mpr ⟨c, List.mem_filter.mpr ⟨hc, hactive⟩, hi⟩
  refine hconf.frame id fun hmem => ?_
  obtain ⟨c, hc, hmovable⟩ := List.mem_flatMap.mp hmem
  obtain ⟨hc, hactive⟩ := List.mem_filter.mp hc
  exact hid c hc hactive hmovable

theorem not_mem_run_updates (hid : solver.Anchors l snapshot id) (h : snapshot.NumericAt id) :
    ∀ solution ∈ (solver.run observer l snapshot).solutions, id ∉ solution.updates := by
  rw [run_solutions, List.forall_mem_map]
  intro a ha
  rw [Attempt.verdict_updates]
  refine not_mem_attempts_updates observer solver.settings (fun c hc => ?_) h a ha
  obtain ⟨hmem, hactive⟩ := mem_solveOrder.mp hc
  exact hid c hmem hactive

end Solver

end Drafting
