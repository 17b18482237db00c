import Drafting.Admission
import Drafting.Proofs.Entity.Shape
import Drafting.Proofs.Solving.Lookup

/-! What a passed check says.

`Admission.check_eq_ok` takes the check apart into its five stages. The stages then
speak for themselves: no identifier is repeated exactly if the row has no
duplicates, and a kind that carries a value or an offset finds one of the right
shape. -/
namespace Drafting.Admission

variable {snapshot : Snapshot} {kind : ConstraintKind} {ids : List EntityId} {parameters : Parameters}

/-- All five stages pass. -/
structure Passed (snapshot : Snapshot) (kind : ConstraintKind) (ids : List EntityId) (parameters : Parameters) : Prop where
  kinds : ∃ found, kinds snapshot ids = .ok found ∧
    firstMismatch? kind 0 (places kind (found.head?.map Prod.snd)) found = none
  arity : kind.arity.accepts ids.length = true
  distinct : firstRepeated? [] ids = none
  value : checkValue kind parameters = .ok ()
  point : checkPoint kind parameters = .ok ()

theorem check_eq_ok : check snapshot kind ids parameters = .ok () ↔ Passed snapshot kind ids parameters := by
  have hstages : check snapshot kind ids parameters = .ok () ↔ ∃ found, Admission.kinds snapshot ids = .ok found ∧
      kind.arity.accepts ids.length = true ∧ firstRepeated? [] ids = none ∧
      firstMismatch? kind 0 (places kind (found.head?.map Prod.snd)) found = none ∧
      checkValue kind parameters = .ok () ∧ checkPoint kind parameters = .ok () := by
    unfold check
    rw [bind_eq_ok]
    refine exists_congr fun found => and_congr_right fun _ => ?_
    cases kind.arity.accepts ids.length <;> cases firstRepeated? [] ids <;>
      cases firstMismatch? kind 0 (places kind (found.head?.map Prod.snd)) found <;>
      cases checkValue kind parameters <;> simp [throw, throwThe, MonadExceptOf.throw, bind, Except.bind]
  rw [hstages]
  constructor
  · intro ⟨found, hkinds, harity, hdistinct, hplaces, hvalue, hpoint⟩
    exact ⟨⟨found, hkinds, hplaces⟩, harity, hdistinct, hvalue, hpoint⟩
  · intro ⟨⟨found, hkinds, hplaces⟩, harity, hdistinct, hvalue, hpoint⟩
    exact ⟨found, hkinds, harity, hdistinct, hplaces, hvalue, hpoint⟩

/-! ### Kinds -/

theorem kinds_nil {found : List (EntityId × EntityKind)} : kinds snapshot [] = .ok found ↔ found = [] := by
  simp [kinds, eq_comm]

theorem kinds_cons {id : EntityId} {rest : List EntityId} {found : List (EntityId × EntityKind)} :
    kinds snapshot (id :: rest) = .ok found ↔
      ∃ k, snapshot.kind? id = some k ∧ ∃ more, kinds snapshot rest = .ok more ∧ found = (id, k) :: more := by
  rw [kinds, Snapshot.kind?]
  cases snapshot.get? id with
  | none => simp
  | some e =>
    cases kinds snapshot rest with
    | error e => simp [Except.map]
    | ok more => simp [Except.map, eq_comm]

theorem exists_kinds_iff : (∃ found, kinds snapshot ids = .ok found) ↔ ∀ id ∈ ids, (snapshot.kind? id).isSome = true := by
  induction ids with
  | nil => simp [kinds_nil]
  | cons id rest ih =>
    rw [List.forall_mem_cons, ← ih, Option.isSome_iff_exists]
    simp only [kinds_cons]
    constructor
    · intro ⟨_, k, hk, more, hmore, _⟩
      exact ⟨⟨k, hk⟩, more, hmore⟩
    · intro ⟨⟨k, hk⟩, more, hmore⟩
      exact ⟨_, k, hk, more, hmore, rfl⟩

/-- Only kinds are looked at. -/
theorem kinds_congr {other : Snapshot} (h : ∀ id, other.kind? id = snapshot.kind? id) : kinds other ids = kinds snapshot ids := by
  induction ids with
  | nil => rfl
  | cons id rest ih =>
    have hid := h id
    unfold Snapshot.kind? at hid
    rw [kinds, kinds, ih]
    cases ho : other.get? id <;> cases hs : snapshot.get? id <;> simp_all

section Places
variable {position : Nat} {wanted : List (Option Expected)} {found : List (EntityId × EntityKind)}

@[simp] theorem firstMismatch?_nil : firstMismatch? kind position [] found = none := by
  cases found <;> rfl

@[simp] theorem firstMismatch?_some {expected : Expected} {id : EntityId} {k : EntityKind} :
    firstMismatch? kind position (some expected :: wanted) ((id, k) :: found) = none ↔
      expected.admits k = true ∧ firstMismatch? kind (position + 1) wanted found = none := by
  rw [firstMismatch?]
  split <;> simp_all

@[simp] theorem firstMismatch?_none {e : EntityId × EntityKind} :
    firstMismatch? kind position (none :: wanted) (e :: found) = none ↔
      firstMismatch? kind (position + 1) wanted found = none := by
  rw [firstMismatch?]

end Places

/-! ### Repetitions and parameters -/

theorem firstRepeated?_eq_none {seen : List EntityId} :
    firstRepeated? seen ids = none ↔ ids.Nodup ∧ ∀ id ∈ ids, id ∉ seen := by
  induction ids generalizing seen with
  | nil => simp [firstRepeated?]
  | cons id rest ih =>
    rw [firstRepeated?]
    split
    · simp_all
    · rw [ih, List.nodup_cons]
      simp only [List.mem_append, List.mem_singleton, not_or, List.forall_mem_cons]
      constructor
      · intro ⟨hnodup, hfresh⟩
        exact ⟨⟨fun hm => (hfresh id hm).2 rfl, hnodup⟩, ‹_›, fun i hi => (hfresh i hi).1⟩
      · intro ⟨⟨hid, hnodup⟩, _, hfresh⟩
        exact ⟨hnodup, fun i hi => ⟨hfresh i hi, fun he => hid (he ▸ hi)⟩⟩

/-- A kind with a value finds a number. -/
theorem number?_isSome (h : checkValue kind parameters = .ok ()) {key : ParameterKey} (hkey : kind.valueKey? = some key) :
    (parameters.number? key).isSome = true := by
  unfold checkValue at h
  simp only [hkey] at h
  unfold Parameters.number?
  cases hp : parameters.get? key with
  | none => simp [hp] at h
  | some value =>
    cases value with
    | number x => rfl
    | point p => simp [hp] at h
    | vector v => simp [hp] at h

/-- A value that is there is finite. -/
theorem number?_isFinite (h : checkValue kind parameters = .ok ()) {key : ParameterKey} (hkey : kind.valueKey? = some key)
    {x : Float} (hx : parameters.number? key = some x) : x.isFinite = true := by
  unfold checkValue at h
  simp only [hkey] at h
  unfold Parameters.number? at hx
  split at hx
  · rename_i hfound
    cases hx
    simp only [hfound] at h
    split at h
    · cases h
    · rename_i hfinite
      simpa using hfinite
  · cases hx

/-- A pattern finds its offset. -/
theorem offset_isSome (h : checkPoint .pattern parameters = .ok ()) : (parameters.vector? .offset).isSome = true := by
  unfold checkPoint at h
  unfold Parameters.vector?
  cases hp : parameters.get? .offset with
  | none => simp [hp] at h
  | some value =>
    cases value with
    | vector v => rfl
    | number x => simp [hp] at h
    | point p => simp [hp] at h

/-- A point that is there is one. -/
theorem point_isSome (h : checkPoint .fix parameters = .ok ()) (hmem : ParameterKey.point ∈ parameters) :
    (parameters.point? .point).isSome = true := by
  unfold checkPoint at h
  unfold Parameters.point?
  cases hp : parameters.get? .point with
  | none => simp [Table.mem_iff, hp] at hmem
  | some value =>
    cases value with
    | point p => rfl
    | number x => simp [hp] at h
    | vector v => simp [hp] at h

end Drafting.Admission
