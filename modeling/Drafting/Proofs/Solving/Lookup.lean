import Drafting.Solving.Correction

/-! Where the parts of a relation come from.

Looking up a constraint reads the snapshot at the constraint's own entities and
nowhere else: snapshots that agree there give the same relation, or the same error
(`relation?_congr`). And what a relation moves is what the snapshot holds
(`mem_movers`): a mover carries the identifier of an entity of the constraint and
the value found under it. -/
namespace Drafting

theorem bind_eq_ok {ε α β : Type} {x : Except ε α} {f : α → Except ε β} {b : β} :
    x >>= f = .ok b ↔ ∃ a, x = .ok a ∧ f a = .ok b := by
  cases x <;> simp [bind, Except.bind]

theorem pure_eq_ok {ε α : Type} {a b : α} : (pure a : Except ε α) = .ok b ↔ a = b := by
  simp [pure, Except.pure]

theorem mapError_eq_ok {ε ε' α : Type} {f : ε → ε'} {x : Except ε α} {a : α} :
    x.mapError f = .ok a ↔ x = .ok a := by
  cases x with
  | error e => exact ⟨fun h => (by cases h), fun h => (by cases h)⟩
  | ok b => exact ⟨fun h => (by cases h; rfl), fun h => (by cases h; rfl)⟩

/-- The line as it stands in the snapshot. -/
def Line.subject (l : Line) : Subject := ⟨l.id, .ofSegment l.segment⟩

/-- The circle or arc as it stands in the snapshot. -/
def Round.subject (r : Round) : Subject := ⟨r.id, r.entity⟩

/-- The entities that give way when the relation is corrected, as they stand. -/
def Relation.movers (settings : SolverSettings) : Relation → List Subject
  | parallel _ l | perpendicular _ l | horizontal l | vertical l | tangentLine _ l _ | collinear _ l
  | equalLength _ l | angle _ _ l | length _ l | offsetDistance _ _ l => [l.subject]
  | tangentCircles _ c | concentric _ c | equalRadius _ c | radius _ c | diameter _ c => [c.subject]
  | coincident _ moved | pattern _ _ moved => moved
  | symmetric _ s _ | midpoint s _ | fix _ s => [s]
  | distance _ s₁ s₂ =>
    match settings.distanceMode with
    | .moveSecond => [s₂]
    | .symmetric => [s₁, s₂]

/-- What kind of constraint states the relation. -/
def Relation.kind : Relation → ConstraintKind
  | parallel .. => .parallel
  | perpendicular .. => .perpendicular
  | horizontal .. => .horizontal
  | vertical .. => .vertical
  | tangentLine .. | tangentCircles .. => .tangent
  | concentric .. => .concentric
  | coincident .. => .coincident
  | collinear .. => .collinear
  | equalLength .. => .equalLength
  | equalRadius .. => .equalRadius
  | symmetric .. => .symmetric
  | midpoint .. => .midpoint
  | distance .. => .distance
  | angle .. => .angle
  | radius .. => .radius
  | diameter .. => .diameter
  | length .. => .length
  | fix .. => .fix
  | pattern .. => .pattern
  | offsetDistance .. => .offsetDistance

namespace Constraint

variable {c : Constraint} {snapshot : Snapshot}

/-! ### What a look-up finds -/

/-- The subject is an entity of the constraint, as the snapshot has it. -/
def Finds (c : Constraint) (snapshot : Snapshot) (s : Subject) : Prop :=
  s.id ∈ c.entities ∧ snapshot.get? s.id = some s.entity

theorem idAt_eq_ok {place : Nat} {id : EntityId} : c.idAt place = .ok id ↔ c.entities[place]? = some id := by
  unfold idAt
  cases c.entities[place]? <;> simp

theorem subject_eq_ok {id : EntityId} {s : Subject} :
    subject snapshot id = .ok s ↔ s.id = id ∧ snapshot.get? s.id = some s.entity := by
  obtain ⟨sid, e⟩ := s
  unfold subject
  cases h : snapshot.get? id with
  | none =>
    simp only [reduceCtorEq, false_iff, not_and]
    intro hid
    subst hid
    simp [h]
  | some v =>
    simp only [Except.ok.injEq, Subject.mk.injEq]
    constructor
    · intro h
      obtain ⟨rfl, rfl⟩ := h
      exact ⟨rfl, h⟩
    · intro h
      obtain ⟨rfl, h'⟩ := h
      exact ⟨rfl, Option.some.inj (h.symm.trans h')⟩

theorem subjectAt_eq_ok {place : Nat} {s : Subject} :
    c.subjectAt snapshot place = .ok s ↔
      c.entities[place]? = some s.id ∧ snapshot.get? s.id = some s.entity := by
  simp only [subjectAt, bind_eq_ok, idAt_eq_ok, subject_eq_ok]
  constructor
  · intro h
    obtain ⟨id, hid, rfl, he⟩ := h
    exact ⟨hid, he⟩
  · intro ⟨hid, he⟩
    exact ⟨s.id, hid, rfl, he⟩

theorem finds_subjectAt {place : Nat} {s : Subject} (h : c.subjectAt snapshot place = .ok s) : c.Finds snapshot s := by
  obtain ⟨hid, he⟩ := subjectAt_eq_ok.mp h
  exact ⟨List.mem_of_getElem? hid, he⟩

theorem subject_of_asLine {s : Subject} {l : Line} (h : asLine s = .ok l) : l.subject = s := by
  obtain ⟨id, e⟩ := s
  cases e <;> cases h
  rfl

theorem subject_of_asRound {s : Subject} {r : Round} (h : asRound s = .ok r) : r.subject = s := by
  obtain ⟨id, e⟩ := s
  cases e <;> cases h <;> rfl

theorem finds_lineAt {place : Nat} {l : Line} (h : c.lineAt snapshot place = .ok l) :
    c.Finds snapshot l.subject := by
  obtain ⟨s, hs, hl⟩ := bind_eq_ok.mp h
  rw [subject_of_asLine hl]
  exact finds_subjectAt hs

theorem finds_roundAt {place : Nat} {r : Round} (h : c.roundAt snapshot place = .ok r) :
    c.Finds snapshot r.subject := by
  obtain ⟨s, hs, hr⟩ := bind_eq_ok.mp h
  rw [subject_of_asRound hr]
  exact finds_subjectAt hs

theorem place_of_roundAt {place : Nat} {r : Round} (h : c.roundAt snapshot place = .ok r) :
    c.entities[place]? = some r.id := by
  obtain ⟨s, hs, hr⟩ := bind_eq_ok.mp h
  obtain ⟨hplace, _⟩ := subjectAt_eq_ok.mp hs
  rw [hplace, ← subject_of_asRound hr]
  rfl

theorem place_of_lineAt {place : Nat} {l : Line} (h : c.lineAt snapshot place = .ok l) : c.entities[place]? = some l.id := by
  obtain ⟨s, hs, hl⟩ := bind_eq_ok.mp h
  obtain ⟨hplace, _⟩ := subjectAt_eq_ok.mp hs
  rw [hplace, ← subject_of_asLine hl]
  rfl

theorem mem_others {subjects : List Subject} (h : c.others snapshot = .ok subjects) :
    ∀ s ∈ subjects, s.id ∈ c.entities.drop 1 ∧ snapshot.get? s.id = some s.entity := by
  unfold others at h
  generalize c.entities.drop 1 = ids at h ⊢
  induction ids generalizing subjects with
  | nil =>
    intro s hs
    rw [List.mapM_nil, pure_eq_ok] at h
    rw [← h] at hs
    cases hs
  | cons id rest ih =>
    intro s hs
    simp only [List.mapM_cons, bind_eq_ok, pure_eq_ok] at h
    obtain ⟨first, hfirst, others, hothers, rfl⟩ := h
    rcases List.mem_cons.mp hs with rfl | hs
    · obtain ⟨hid, he⟩ := subject_eq_ok.mp hfirst
      exact ⟨hid ▸ List.mem_cons_self, he⟩
    · exact ⟨List.mem_cons_of_mem _ (ih hothers s hs).1, (ih hothers s hs).2⟩

theorem finds_others {subjects : List Subject} (h : c.others snapshot = .ok subjects) :
    ∀ s ∈ subjects, c.Finds snapshot s := by
  intro s hs
  obtain ⟨hid, he⟩ := mem_others h s hs
  exact ⟨List.mem_of_mem_drop hid, he⟩

theorem finds_tangentPair (settings : SolverSettings) {first second : Subject} {r : Relation}
    (h₁ : c.Finds snapshot first) (h₂ : c.Finds snapshot second) (h : c.tangentPair first second = .ok r) :
    ∀ s ∈ r.movers settings, c.Finds snapshot s := by
  unfold tangentPair at h
  split at h
  · cases h
    intro s hs
    rw [List.mem_singleton.mp hs]
    exact h₂
  · obtain ⟨l, hl, hr⟩ := bind_eq_ok.mp h
    cases hr
    simpa [Relation.movers, subject_of_asLine hl] using h₂
  · obtain ⟨l, hl, hr⟩ := bind_eq_ok.mp h
    cases hr
    simpa [Relation.movers, subject_of_asLine hl] using h₁
  · cases h

/-- What a relation moves are entities of its constraint, as they stand in the snapshot. -/
theorem finds_movers (settings : SolverSettings) {r : Relation} (h : c.relation? snapshot = .ok r) :
    ∀ s ∈ r.movers settings, c.Finds snapshot s := by
  unfold relation? at h
  cases hk : c.kind <;> simp only [hk, bind_eq_ok, pure_eq_ok] at h
  case parallel | perpendicular | collinear | equalLength =>
    obtain ⟨l₁, _, l₂, h₂, rfl⟩ := h
    simpa [Relation.movers] using finds_lineAt h₂
  case horizontal | vertical =>
    obtain ⟨l, hl, rfl⟩ := h
    simpa [Relation.movers] using finds_lineAt hl
  case tangent =>
    obtain ⟨s₁, h₁, s₂, h₂, hr⟩ := h
    exact finds_tangentPair settings (finds_subjectAt h₁) (finds_subjectAt h₂) hr
  case concentric | equalRadius =>
    obtain ⟨c₁, _, c₂, h₂, rfl⟩ := h
    simpa [Relation.movers] using finds_roundAt h₂
  case coincident =>
    obtain ⟨s, _, moved, hm, rfl⟩ := h
    exact finds_others hm
  case symmetric =>
    obtain ⟨s₁, _, s₂, h₂, axis, _, rfl⟩ := h
    simpa [Relation.movers] using finds_subjectAt h₂
  case midpoint =>
    obtain ⟨s, hs, host, _, rfl⟩ := h
    simpa [Relation.movers] using finds_subjectAt hs
  case distance =>
    obtain ⟨target, _, s₁, h₁, s₂, h₂, rfl⟩ := h
    simp only [Relation.movers]
    split
    · simpa using finds_subjectAt h₂
    · simpa using ⟨finds_subjectAt h₁, finds_subjectAt h₂⟩
  case angle | offsetDistance =>
    obtain ⟨target, _, l₁, _, l₂, h₂, rfl⟩ := h
    simpa [Relation.movers] using finds_lineAt h₂
  case radius | diameter =>
    obtain ⟨target, _, round, hr, rfl⟩ := h
    simpa [Relation.movers] using finds_roundAt hr
  case length =>
    obtain ⟨target, _, l, hl, rfl⟩ := h
    simpa [Relation.movers] using finds_lineAt hl
  case fix =>
    obtain ⟨target, _, s, hs, rfl⟩ := h
    simpa [Relation.movers] using finds_subjectAt hs
  case pattern =>
    obtain ⟨offset, _, s, _, moved, hm, rfl⟩ := h
    exact finds_others hm

theorem kind_tangentPair {first second : Subject} {r : Relation} (h : c.tangentPair first second = .ok r) :
    r.kind = .tangent := by
  unfold tangentPair at h
  split at h
  · cases h
    rfl
  · obtain ⟨_, _, hr⟩ := bind_eq_ok.mp h
    cases hr
    rfl
  · obtain ⟨_, _, hr⟩ := bind_eq_ok.mp h
    cases hr
    rfl
  · cases h

/-- A constraint states a relation of its own kind. -/
theorem kind_relation? {r : Relation} (h : c.relation? snapshot = .ok r) : r.kind = c.kind := by
  unfold relation? at h
  cases hk : c.kind <;> simp only [hk, bind_eq_ok, pure_eq_ok] at h
  case horizontal | vertical =>
    obtain ⟨_, _, rfl⟩ := h
    rfl
  case tangent =>
    obtain ⟨_, _, _, _, hr⟩ := h
    exact kind_tangentPair hr
  case symmetric | distance | angle | pattern | offsetDistance =>
    obtain ⟨_, _, _, _, _, _, rfl⟩ := h
    rfl
  all_goals
    obtain ⟨_, _, _, _, rfl⟩ := h
    rfl

/-! ### What a look-up reads -/

section Locality
variable {other : Snapshot} (h : ∀ id ∈ c.entities, snapshot.get? id = other.get? id)
include h

theorem subjectAt_congr (place : Nat) : c.subjectAt snapshot place = c.subjectAt other place := by
  unfold subjectAt
  cases hid : c.idAt place with
  | error e => rfl
  | ok id =>
    show subject snapshot id = subject other id
    rw [subject, subject, h id (List.mem_of_getElem? (idAt_eq_ok.mp hid))]

theorem lineAt_congr (place : Nat) : c.lineAt snapshot place = c.lineAt other place := by
  rw [lineAt, lineAt, subjectAt_congr h]

theorem roundAt_congr (place : Nat) : c.roundAt snapshot place = c.roundAt other place := by
  rw [roundAt, roundAt, subjectAt_congr h]

theorem others_congr : c.others snapshot = c.others other := by
  have hall : ∀ ids : List EntityId, (∀ id ∈ ids, snapshot.get? id = other.get? id) →
      ids.mapM (subject snapshot) = ids.mapM (subject other) := by
    intro ids
    induction ids with
    | nil => intro _; rfl
    | cons id rest ih =>
      intro hids
      rw [List.mapM_cons, List.mapM_cons, ih fun i hi => hids i (List.mem_cons_of_mem _ hi), subject, subject,
        hids id List.mem_cons_self]
  exact hall _ fun id hid => h id (List.mem_of_mem_drop hid)

/-- A constraint looks at its own entities only. -/
theorem relation?_congr : c.relation? snapshot = c.relation? other := by
  unfold relation?
  cases c.kind <;> simp only [subjectAt_congr h, lineAt_congr h, roundAt_congr h, others_congr h]

theorem residual_congr : c.residual snapshot = c.residual other := by
  rw [residual, residual, relation?_congr h]

theorem correction_congr (settings : SolverSettings) : c.correction settings snapshot = c.correction settings other := by
  rw [correction, correction, relation?_congr h]

end Locality

end Constraint

end Drafting
