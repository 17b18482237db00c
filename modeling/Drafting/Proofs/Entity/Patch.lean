import Drafting.Proofs.Entity.Numeric
import Drafting.Proofs.Entity.Twin

/-! Updates, field by field.

An entity of a kind is nothing but its fields (`Entity.ext_field?`), and so is an
update. Applying one puts its fields over those of the entity
(`Entity.field?_apply`). The difference of two entities of one kind has exactly the
fields that do not agree, with the new values (`Entity.field?_difference`). So it is a
patch from the one to the other, and among numbers none is smaller
(`Entity.diff_patches`).

Agreeing is comparing equal: what is not a number disagrees with itself and is
always in the difference, and a zero is not exchanged for the other one. -/
namespace Drafting

/-- The names of fields. -/
inductive Field where
  | position
  | start
  | stop
  | center
  | radius
  | startAngle
  | endAngle
  | width
  | height
  | points
  | closed
  deriving DecidableEq, Repr

/-- What stands in a field. -/
inductive FieldValue where
  | point (p : Point)
  | number (x : Float)
  | points (ps : List Point)
  | flag (b : Bool)
  deriving DecidableEq

/-- Whether two values compare equal. -/
def FieldValue.agrees : FieldValue → FieldValue → Bool
  | .point p, .point q => p.agrees q
  | .number x, .number y => x == y
  | .points ps, .points qs => Point.allAgree ps qs
  | .flag b, .flag b' => b == b'
  | _, _ => false

namespace EntityUpdate

/-- The new value of a field, if it gets one. -/
def field? : EntityUpdate → Field → Option FieldValue
  | .point p, .position => p.map .point
  | .line s _, .start => s.map .point
  | .line _ e, .stop => e.map .point
  | .circle c _, .center => c.map .point
  | .circle _ r, .radius => r.map .number
  | .arc c _ _ _, .center => c.map .point
  | .arc _ r _ _, .radius => r.map .number
  | .arc _ _ s _, .startAngle => s.map .number
  | .arc _ _ _ e, .endAngle => e.map .number
  | .rectangle p _ _, .position => p.map .point
  | .rectangle _ w _, .width => w.map .number
  | .rectangle _ _ h, .height => h.map .number
  | .polyline ps _, .points => ps.map .points
  | .polyline _ c, .closed => c.map .flag
  | _, _ => none

theorem isEmpty_iff (u : EntityUpdate) : u.isEmpty = true ↔ ∀ f, u.field? f = none := by
  constructor
  · intro h f
    cases u <;> simp only [isEmpty, Bool.and_eq_true, Option.isNone_iff_eq_none] at h <;> cases f <;> simp [field?, h]
  · intro h
    cases u with
    | point p => simpa [field?, isEmpty] using h .position
    | line s e => simpa [field?, isEmpty] using And.intro (h .start) (h .stop)
    | circle c r => simpa [field?, isEmpty] using And.intro (h .center) (h .radius)
    | arc c r s e =>
      simpa [field?, isEmpty, and_assoc] using
        And.intro (h .center) (And.intro (h .radius) (And.intro (h .startAngle) (h .endAngle)))
    | rectangle p w t =>
      simpa [field?, isEmpty, and_assoc] using And.intro (h .position) (And.intro (h .width) (h .height))
    | polyline ps c => simpa [field?, isEmpty] using And.intro (h .points) (h .closed)

end EntityUpdate

namespace Entity

/-- The value of a field, if the entity has it. -/
def field? : Entity → Field → Option FieldValue
  | .point p, .position => some (.point p)
  | .line s _, .start => some (.point s)
  | .line _ e, .stop => some (.point e)
  | .circle c _, .center => some (.point c)
  | .circle _ r, .radius => some (.number r)
  | .arc c _ _ _, .center => some (.point c)
  | .arc _ r _ _, .radius => some (.number r)
  | .arc _ _ s _, .startAngle => some (.number s)
  | .arc _ _ _ e, .endAngle => some (.number e)
  | .rectangle p _ _, .position => some (.point p)
  | .rectangle _ w _, .width => some (.number w)
  | .rectangle _ _ h, .height => some (.number h)
  | .polyline ps _, .points => some (.points ps)
  | .polyline _ c, .closed => some (.flag c)
  | _, _ => none

/-- The field has values in both entities that do not agree. -/
def DiffersAt (a b : Entity) (f : Field) : Prop :=
  ∃ v w, a.field? f = some v ∧ b.field? f = some w ∧ v.agrees w = false

variable {a b e : Entity} {u : EntityUpdate} {f : Field}

/-- An entity of a kind is nothing but its fields. -/
theorem ext_field? (hkind : a.kind = b.kind) (h : ∀ f, a.field? f = b.field? f) : a = b := by
  cases a <;> cases b <;> cases hkind
  case point.point => simpa [field?] using h .position
  case line.line => simpa [field?] using And.intro (h .start) (h .stop)
  case circle.circle => simpa [field?] using And.intro (h .center) (h .radius)
  case arc.arc =>
    simpa [field?] using And.intro (h .center) (And.intro (h .radius) (And.intro (h .startAngle) (h .endAngle)))
  case rectangle.rectangle => simpa [field?] using And.intro (h .position) (And.intro (h .width) (h .height))
  case polyline.polyline => simpa [field?] using And.intro (h .points) (h .closed)

/-- Entities of one kind have the same fields. -/
theorem isSome_field? (h : a.kind = b.kind) (f : Field) : (a.field? f).isSome = (b.field? f).isSome := by
  cases a <;> cases b <;> cases h <;> cases f <;> rfl

/-- A field that gets a new value, or keeps the old one. -/
theorem overlaid {α : Type} (mk : α → FieldValue) (old : α) (new : Option α) :
    some (mk (new.getD old)) = (new.map mk).or (some (mk old)) := by
  cases new <;> rfl

/-- An update puts its fields over those of the entity. -/
theorem field?_apply (h : u.kind = e.kind) (f : Field) : (e.apply u).field? f = (u.field? f).or (e.field? f) := by
  cases e <;> cases u <;> cases h <;> cases f <;> first | rfl | exact overlaid _ _ _

theorem apply_of_kind_ne (h : u.kind ≠ e.kind) : e.apply u = e := by
  cases e <;> cases u <;> first | rfl | exact absurd rfl h

/-- A second application finds everything in its place. -/
theorem apply_apply (e : Entity) (u : EntityUpdate) : (e.apply u).apply u = e.apply u := by
  by_cases h : u.kind = e.kind
  · have h' : u.kind = (e.apply u).kind := h.trans (kind_apply e u).symm
    refine ext_field? (kind_apply ..) fun f => ?_
    rw [field?_apply h', field?_apply h, ← Option.or_assoc, Option.or_self]
  · rw [apply_of_kind_ne h, apply_of_kind_ne h]

/-! ### Differences -/

/-- What is told of a field: the new value, unless it agrees with the old one. -/
def told? : Option FieldValue → Option FieldValue → Option FieldValue
  | some v, some w => if v.agrees w then none else some w
  | _, _ => none

theorem told?_eq_some {v : FieldValue} :
    told? (a.field? f) (b.field? f) = some v ↔ a.DiffersAt b f ∧ b.field? f = some v := by
  unfold DiffersAt
  cases ha : a.field? f <;> cases hb : b.field? f <;> simp_all [told?]

theorem told?_eq_none : told? (a.field? f) (b.field? f) = none ↔ ¬ a.DiffersAt b f := by
  unfold DiffersAt
  cases ha : a.field? f <;> cases hb : b.field? f <;> simp [told?]

theorem map_changed {α : Type} (mk : α → FieldValue) (agrees : α → α → Bool) (old new : α) :
    (changed agrees old new).map mk = if agrees old new then none else some (mk new) := by
  rw [changed]
  cases agrees old new <;> rfl

/-- The difference of entities of one kind is an update of that kind. -/
theorem kind_difference? (h : a.difference? b = some u) : u.kind = a.kind := by
  cases a <;> cases b <;> cases h <;> rfl

/-- It has the fields that do not agree, with the new values. -/
theorem field?_difference? (h : a.difference? b = some u) (f : Field) : u.field? f = told? (a.field? f) (b.field? f) := by
  cases a <;> cases b <;> cases h <;> cases f <;> first | rfl | exact map_changed _ _ _ _

/-- It is empty exactly if the entities agree. -/
theorem isEmpty_difference? (h : a.difference? b = some u) : u.isEmpty = a.agrees b := by
  have hnone {α : Type} (agrees : α → α → Bool) (old new : α) : (changed agrees old new).isNone = agrees old new := by
    rw [changed]
    cases agrees old new <;> rfl
  cases a <;> cases b <;> cases h <;> simp only [EntityUpdate.isEmpty, agrees, hnone] <;> rfl

theorem diff_eq_some_iff : a.diff b = some u ↔ a.difference? b = some u ∧ u.isEmpty = false := by
  rw [diff, Option.filter_eq_some_iff, Bool.not_eq_true']

theorem diff_eq_none_iff (h : a.kind = b.kind) : a.diff b = none ↔ a.agrees b = true := by
  obtain ⟨u, hu⟩ := Option.isSome_iff_exists.mp (difference?_of_kind h)
  rw [← isEmpty_difference? hu, diff, hu, Option.filter_some]
  cases u.isEmpty <;> simp

/-- Entities of one kind agree exactly if there is no field where they differ. -/
theorem agrees_iff (h : a.kind = b.kind) : a.agrees b = true ↔ ∀ f, ¬ a.DiffersAt b f := by
  obtain ⟨u, hu⟩ := Option.isSome_iff_exists.mp (difference?_of_kind h)
  rw [← isEmpty_difference? hu, EntityUpdate.isEmpty_iff]
  exact forall_congr' fun f => by rw [field?_difference? hu, told?_eq_none]

theorem diff_of_kind_ne (h : a.kind ≠ b.kind) : a.diff b = none := by
  cases a <;> cases b <;> first | rfl | exact absurd rfl h

/-- What is not told of is left as it is, and agrees. -/
theorem rel_field?_apply (h : a.difference? b = some u) (hkind : a.kind = b.kind) (f : Field) :
    Option.Rel (fun v w => v = w ∨ FieldValue.agrees v w = true) ((a.apply u).field? f) (b.field? f) := by
  rw [field?_apply (kind_difference? h), field?_difference? h]
  have hfields := isSome_field? hkind f
  generalize a.field? f = old, b.field? f = new at hfields ⊢
  cases old <;> cases new <;> try cases hfields
  case none.none => exact .none
  case some.some v w =>
    rw [told?]
    cases hagree : v.agrees w with
    | true => exact .some (.inr hagree)
    | false => exact .some (.inl rfl)

/-- A field made of numbers agrees with itself. -/
theorem agrees_self_of_field? (h : a.IsNumeric) {v : FieldValue} (hv : a.field? f = some v) : v.agrees v = true := by
  cases a with
  | point p =>
    cases f <;> cases hv
    exact Point.agrees_self h
  | line s e =>
    cases f <;> cases hv
    · exact Point.agrees_self h.1
    · exact Point.agrees_self h.2
  | circle c r =>
    cases f <;> cases hv
    · exact Point.agrees_self h.1
    · exact Number.beq_self h.2
  | arc c r s e =>
    cases f <;> cases hv
    · exact Point.agrees_self h.1
    · exact Number.beq_self h.2.1
    · exact Number.beq_self h.2.2.1
    · exact Number.beq_self h.2.2.2
  | rectangle p w t =>
    cases f <;> cases hv
    · exact Point.agrees_self h.1
    · exact Number.beq_self h.2.1
    · exact Number.beq_self h.2.2
  | polyline ps c =>
    cases f <;> cases hv
    · exact Point.allAgree_self h
    · exact beq_self_eq_true c

theorem DiffersAt.field?_ne (h : a.DiffersAt b f) (hnumeric : a.IsNumeric) : a.field? f ≠ b.field? f := by
  obtain ⟨v, w, hv, hw, hvw⟩ := h
  intro hsame
  rw [hv, hw, Option.some.injEq] at hsame
  subst hsame
  rw [agrees_self_of_field? hnumeric hv] at hvw
  cases hvw

/-- An update that leads to a new entity gives every field that differs. -/
theorem field?_of_apply_eq (hnumeric : a.IsNumeric) (hu : a.apply u = b) (h : a.DiffersAt b f) :
    u.field? f = b.field? f := by
  by_cases hkind : u.kind = a.kind
  · have hfield := field?_apply hkind f
    rw [hu] at hfield
    cases hgiven : u.field? f with
    | some v => rw [hfield, hgiven, Option.some_or]
    | none =>
      rw [hgiven, Option.none_or] at hfield
      exact absurd hfield.symm (h.field?_ne hnumeric)
  · rw [apply_of_kind_ne hkind] at hu
    subst hu
    exact absurd rfl (h.field?_ne hnumeric)

/-- What makes an update the smallest one that leads from an entity to another. -/
structure SmallestPatch (a b : Entity) (u : EntityUpdate) : Prop where
  kind : u.kind = a.kind
  isEmpty : u.isEmpty = false
  /-- It has exactly the fields that differ, with the new values. -/
  fields : ∀ f v, u.field? f = some v ↔ a.DiffersAt b f ∧ b.field? f = some v
  /-- After it every field is the new one, or agrees with it. -/
  result : (a.apply u).kind = b.kind ∧
    ∀ f, Option.Rel (fun v w => v = w ∨ FieldValue.agrees v w = true) ((a.apply u).field? f) (b.field? f)
  /-- Where all is numbers, whatever else leads to the new entity has these fields, too. -/
  smallest : a.IsNumeric → ∀ u', a.apply u' = b → ∀ f v, u.field? f = some v → u'.field? f = some v

theorem smallestPatch_difference? (h : a.difference? b = some u) (hkind : a.kind = b.kind) (hempty : u.isEmpty = false) :
    a.SmallestPatch b u := by
  have hfields (f : Field) (v : FieldValue) : u.field? f = some v ↔ a.DiffersAt b f ∧ b.field? f = some v := by
    rw [field?_difference? h, told?_eq_some]
  refine ⟨kind_difference? h, hempty, hfields, ⟨(kind_apply a u).trans hkind, rel_field?_apply h hkind⟩, ?_⟩
  intro hnumeric u' hu' f v hv
  obtain ⟨hdiffers, hb⟩ := (hfields f v).mp hv
  exact (field?_of_apply_eq hnumeric hu' hdiffers).trans hb

/-- **The difference of two entities is the smallest patch.** Between entities of one kind there is none exactly if
they agree in every field, and otherwise it is the smallest update that leads from the one to the other. Entities of
different kinds have no difference, and an update for another kind does nothing. Whatever an update does, it keeps
the kind, and doing it twice does no more. -/
theorem diff_patches (a b : Entity) :
    (a.kind = b.kind →
      (a.diff b = none ↔ a.agrees b = true) ∧ (a.diff b = none ↔ ∀ f, ¬ a.DiffersAt b f) ∧
      ∀ u, a.diff b = some u → a.SmallestPatch b u) ∧
    (a.kind ≠ b.kind → a.diff b = none) ∧
    (∀ u : EntityUpdate, u.kind ≠ a.kind → a.apply u = a) ∧
    ∀ u : EntityUpdate, (a.apply u).kind = a.kind ∧ (a.apply u).apply u = a.apply u := by
  refine ⟨fun hkind => ⟨diff_eq_none_iff hkind, (diff_eq_none_iff hkind).trans (agrees_iff hkind), fun u hu => ?_⟩,
    diff_of_kind_ne, fun _ => apply_of_kind_ne, fun u => ⟨kind_apply a u, apply_apply a u⟩⟩
  obtain ⟨hdifference, hempty⟩ := diff_eq_some_iff.mp hu
  exact smallestPatch_difference? hdifference hkind hempty

/-- An arc whose start angle is no number, and the same with another radius and the other zeros. The difference
has the radius, and the start angle again; the zeros stay. -/
theorem diff_patches_arc :
    let odd : Float := 0.0 / 0.0
    let old : Entity := .arc ⟨0.0, 1.0⟩ 5.0 odd 0.0
    let new : Entity := .arc ⟨-0.0, 1.0⟩ 8.0 odd (-0.0)
    old.kind = new.kind ∧ ∃ u, old.diff new = some u ∧ u.field? .radius = some (.number 8.0) ∧
      u.field? .startAngle = some (.number odd) ∧ u.field? .center = none ∧ u.field? .endAngle = none := by
  intro odd old new
  have hupdate : old.diff new = some (.arc none (some 8.0) (some odd) none) := by decide +kernel
  have hfields := (((diff_patches old new).1 rfl).2.2 _ hupdate).fields
  refine ⟨rfl, _, hupdate, (hfields _ _).mpr ⟨⟨_, _, rfl, rfl, ?_⟩, rfl⟩, (hfields _ _).mpr ⟨⟨_, _, rfl, rfl, ?_⟩, rfl⟩,
    rfl, rfl⟩
  · decide +kernel
  · decide +kernel

end Entity

end Drafting
