import Drafting.Proofs.Entity.Shape
import Drafting.Proofs.Solving.Resolution

/-! What the kinds of entities decide.

A look-up asks whether an entity is there, of which kind it is, and whether a
parameter is given. It looks at no coordinate. So in two snapshots with the same
kinds a constraint, sound or not, has the same luck: it states a relation in both,
or it misses the same thing first (`Constraint.relation?_abreast`). Where it states
a relation, all that is left to go wrong in a residual or a step is a line without
length. -/
namespace Drafting

/-- The error lies in the constraint and in which entities there are, and in no coordinate. -/
def SolveError.isStructural : SolveError → Bool
  | .entityNotFound _ | .wrongEntityType .. | .missingParameter .. | .malformed _ => true
  | _ => false

theorem SolveError.not_structural_of_blamesLength {e : SolveError} (h : e.blamesLength = true) :
    e.isStructural = false := by
  cases e <;> first | rfl | cases h

/-! ### Look-ups side by side -/

/-- Two look-ups with the same luck: both find something, and what they find is related, or both miss
the same thing. -/
inductive Abreast {α β : Type} (r : α → β → Prop) : Except SolveError α → Except SolveError β → Prop where
  | found {a : α} {b : β} : r a b → Abreast r (.ok a) (.ok b)
  | missed {e : SolveError} : e.isStructural = true → Abreast r (.error e) (.error e)

namespace Abreast

variable {α β γ δ : Type} {r : α → β → Prop} {q : γ → δ → Prop}

theorem bind {x : Except SolveError α} {y : Except SolveError β} {f : α → Except SolveError γ}
    {g : β → Except SolveError δ} (h : Abreast r x y) (hf : ∀ a b, r a b → Abreast q (f a) (g b)) :
    Abreast q (x >>= f) (y >>= g) := by
  cases h with
  | found hr => exact hf _ _ hr
  | missed he => exact .missed he

theorem mapM {f : γ → Except SolveError α} {g : γ → Except SolveError β} (h : ∀ k, Abreast r (f k) (g k))
    (l : List γ) : Abreast (List.Forall₂ r) (l.mapM f) (l.mapM g) := by
  induction l with
  | nil => exact .found .nil
  | cons k rest ih =>
    rw [List.mapM_cons, List.mapM_cons]
    exact (h k).bind fun _ _ hr => ih.bind fun _ _ hrest => .found (.cons hr hrest)

theorem ok_iff {x : Except SolveError α} {y : Except SolveError β} (h : Abreast r x y) :
    (∃ a, x = .ok a) ↔ ∃ b, y = .ok b := by
  cases h with
  | found => exact iff_of_true ⟨_, rfl⟩ ⟨_, rfl⟩
  | missed => exact iff_of_false nofun nofun

theorem error_iff {x : Except SolveError α} {y : Except SolveError β} (h : Abreast r x y) {e : SolveError} :
    x = .error e ↔ y = .error e := by
  cases h with
  | found => exact iff_of_false nofun nofun
  | missed => exact ⟨fun h => congrArg _ (Except.error.inj h), fun h => congrArg _ (Except.error.inj h)⟩

theorem structural {x : Except SolveError α} {y : Except SolveError β} (h : Abreast r x y) {e : SolveError}
    (he : x = .error e) : e.isStructural = true := by
  cases h with
  | found => cases he
  | missed hstructural =>
    cases he
    exact hstructural

end Abreast

/-- Nothing is asked of what two look-ups find. -/
abbrev Whatever {α β : Type} : α → β → Prop := fun _ _ => True

/-- Subjects with one name and one kind. -/
def Subject.SameKind (s t : Subject) : Prop := s.id = t.id ∧ s.entity.kind = t.entity.kind

namespace Constraint

theorem idAt_abreast (c : Constraint) (place : Nat) : Abreast Eq (c.idAt place) (c.idAt place) := by
  unfold idAt
  cases c.entities[place]? with
  | some id => exact .found rfl
  | none => exact .missed rfl

theorem demanded_abreast {α : Type} (c : Constraint) (key : ParameterKey) (value : Option α) :
    Abreast Whatever (c.demanded key value) (c.demanded key value) := by
  unfold demanded
  cases value with
  | some v => exact .found trivial
  | none => exact .missed rfl

theorem asLine_abreast {a b : Subject} (h : a.SameKind b) : Abreast Whatever (asLine a) (asLine b) := by
  obtain ⟨id, e⟩ := a
  obtain ⟨id', e'⟩ := b
  obtain ⟨rfl : id = id', hkind⟩ := h
  cases e <;> cases e' <;> cases hkind
  case line.line.refl => exact .found trivial
  all_goals exact .missed rfl

theorem asRound_abreast {a b : Subject} (h : a.SameKind b) : Abreast Whatever (asRound a) (asRound b) := by
  obtain ⟨id, e⟩ := a
  obtain ⟨id', e'⟩ := b
  obtain ⟨rfl : id = id', hkind⟩ := h
  cases e <;> cases e' <;> cases hkind
  case circle.circle.refl | arc.arc.refl => exact .found trivial
  all_goals exact .missed rfl

theorem tangentPair_abreast (c : Constraint) {a b a' b' : Subject} (ha : a.SameKind a') (hb : b.SameKind b') :
    Abreast Whatever (c.tangentPair a b) (c.tangentPair a' b') := by
  obtain ⟨id, e⟩ := a
  obtain ⟨_, e'⟩ := a'
  obtain ⟨rfl, hkind⟩ := ha
  obtain ⟨id', f⟩ := b
  obtain ⟨_, f'⟩ := b'
  obtain ⟨rfl, hkind'⟩ := hb
  cases e <;> cases e' <;> cases hkind <;> cases f <;> cases f' <;> cases hkind' <;>
    first
    | exact .found trivial
    | exact .missed rfl

section Lookups
variable {c : Constraint} {s t : Snapshot} (h : ∀ id, s.kind? id = t.kind? id)
include h

theorem subject_abreast (id : EntityId) : Abreast Subject.SameKind (subject s id) (subject t id) := by
  have hkind := h id
  unfold Snapshot.kind? at hkind
  unfold subject
  cases hs : s.get? id with
  | none =>
    rw [hs] at hkind
    rw [Option.map_eq_none_iff.mp hkind.symm]
    exact .missed rfl
  | some e =>
    rw [hs] at hkind
    obtain ⟨e', ht, hsame⟩ := Option.map_eq_some_iff.mp hkind.symm
    rw [ht]
    exact .found ⟨rfl, hsame.symm⟩

theorem subjectAt_abreast (place : Nat) :
    Abreast Subject.SameKind (c.subjectAt s place) (c.subjectAt t place) :=
  (c.idAt_abreast place).bind fun id _ hid => hid ▸ subject_abreast h id

theorem lineAt_abreast (place : Nat) : Abreast Whatever (c.lineAt s place) (c.lineAt t place) :=
  (subjectAt_abreast h place).bind fun _ _ => asLine_abreast

theorem roundAt_abreast (place : Nat) : Abreast Whatever (c.roundAt s place) (c.roundAt t place) :=
  (subjectAt_abreast h place).bind fun _ _ => asRound_abreast

theorem others_abreast : Abreast (List.Forall₂ Subject.SameKind) (c.others s) (c.others t) :=
  .mapM (subject_abreast h) _

/-- **Where the kinds are the same, a constraint has the same luck.** -/
theorem relation?_abreast : Abreast Whatever (c.relation? s) (c.relation? t) := by
  have hsubject := subjectAt_abreast (c := c) h
  have hline := lineAt_abreast (c := c) h
  have hround := roundAt_abreast (c := c) h
  have hothers := others_abreast (c := c) h
  unfold relation?
  cases c.kind
  case parallel | perpendicular | collinear | equalLength =>
    exact (hline 0).bind fun _ _ _ => (hline 1).bind fun _ _ _ => .found trivial
  case horizontal | vertical => exact (hline 0).bind fun _ _ _ => .found trivial
  case tangent => exact (hsubject 0).bind fun _ _ ha => (hsubject 1).bind fun _ _ hb => c.tangentPair_abreast ha hb
  case concentric | equalRadius =>
    exact (hround 0).bind fun _ _ _ => (hround 1).bind fun _ _ _ => .found trivial
  case coincident => exact (hsubject 0).bind fun _ _ _ => hothers.bind fun _ _ _ => .found trivial
  case symmetric =>
    exact (hsubject 0).bind fun _ _ _ => (hsubject 1).bind fun _ _ _ => (hline 2).bind fun _ _ _ => .found trivial
  case midpoint => exact (hsubject 0).bind fun _ _ _ => (hline 1).bind fun _ _ _ => .found trivial
  case distance =>
    exact (c.demanded_abreast _ _).bind fun _ _ _ =>
      (hsubject 0).bind fun _ _ _ => (hsubject 1).bind fun _ _ _ => .found trivial
  case angle | offsetDistance =>
    exact (c.demanded_abreast _ _).bind fun _ _ _ =>
      (hline 0).bind fun _ _ _ => (hline 1).bind fun _ _ _ => .found trivial
  case radius | diameter =>
    exact (c.demanded_abreast _ _).bind fun _ _ _ => (hround 0).bind fun _ _ _ => .found trivial
  case length => exact (c.demanded_abreast _ _).bind fun _ _ _ => (hline 0).bind fun _ _ _ => .found trivial
  case fix => exact (c.demanded_abreast _ _).bind fun _ _ _ => (hsubject 0).bind fun _ _ _ => .found trivial
  case pattern =>
    exact (c.demanded_abreast _ _).bind fun _ _ _ =>
      (hsubject 0).bind fun _ _ _ => hothers.bind fun _ _ _ => .found trivial

end Lookups

/-! ### Where a constraint states a relation -/

/-- All that the constraint refers to is there, and of a kind that it can take. -/
def HasRelation (snapshot : Snapshot) (c : Constraint) : Prop := ∃ r, c.relation? snapshot = .ok r

variable {c : Constraint} {settings : SolverSettings} {s t : Snapshot} {e : SolveError}

theorem hasRelation_congr (h : ∀ id, t.kind? id = s.kind? id) : c.HasRelation t ↔ c.HasRelation s :=
  (relation?_abreast h).ok_iff

/-- A constraint without a relation misses something, and it misses the same wherever the kinds are the same. -/
theorem hasRelation_or_missed (c : Constraint) (s : Snapshot) :
    c.HasRelation s ∨ ∃ e, e.isStructural = true ∧
      ∀ t : Snapshot, (∀ id, t.kind? id = s.kind? id) → c.residual t = .error e := by
  cases hr : c.relation? s with
  | ok r => exact .inl ⟨r, hr⟩
  | error e =>
    refine .inr ⟨e, (relation?_abreast fun _ => rfl).structural hr, fun t h => ?_⟩
    rw [residual, (relation?_abreast h).error_iff.mpr hr]
    rfl

theorem blamesLength_of_mapError {α : Type} {x : Except Degeneracy α} (h : x.mapError Degeneracy.error = .error e) :
    e.blamesLength = true := by
  cases x with
  | ok a => cases h
  | error d =>
    cases h
    rfl

theorem blamesLength_residual (h : c.HasRelation s) (he : c.residual s = .error e) : e.blamesLength = true := by
  obtain ⟨r, hr⟩ := h
  rw [residual, hr] at he
  exact blamesLength_of_mapError he

theorem blamesLength_step (h : c.HasRelation s) (he : c.step settings s = .error e) : e.blamesLength = true := by
  obtain ⟨r, hr⟩ := h
  have hcorrection : c.correction settings s = (r.correction settings).mapError Degeneracy.error := by
    rw [correction, hr]
    rfl
  rw [step, hcorrection] at he
  cases hx : (r.correction settings).mapError Degeneracy.error with
  | ok changes =>
    rw [hx] at he
    cases he
  | error d =>
    rw [hx] at he
    cases he
    exact blamesLength_of_mapError hx

end Constraint

end Drafting
