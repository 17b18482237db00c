import Drafting.Proofs.Admission
import Mathlib.Data.List.Basic

/-! When references resolve.

Admission and solving each have a table of what the kinds of constraints ask of
their entities: `Admission.places` for the one, the look-ups of
`Constraint.relation?` for the other. They say the same. A `Sound` constraint has
a relation in a snapshot exactly if it `Fits`, that is if admission would have
nothing against its entities there; and when it does not, the error blames an
entity (`Constraint.resolves_relation?`). What is left to go wrong in a residual
or a step is a line without length. -/
namespace Drafting

/-- The error says that an entity is missing or of the wrong kind. -/
def SolveError.blamesEntity : SolveError → Bool
  | .entityNotFound _ | .wrongEntityType .. => true
  | _ => false

/-- The error says that a line has no length. -/
def SolveError.blamesLength : SolveError → Bool
  | .degenerateGeometry .. => true
  | _ => false

namespace Constraint

/-- The number of entities fits and none comes twice, and the parameters are there that the kind
cannot do without. -/
structure Sound (c : Constraint) : Prop where
  arity : c.kind.arity.accepts c.entities.length = true
  distinct : c.entities.Nodup
  value : ∀ key, c.kind.valueKey? = some key → (c.parameters.number? key).isSome = true
  offset : c.kind = .pattern → (c.parameters.vector? .offset).isSome = true
  point : c.kind = .fix → (c.parameters.point? .point).isSome = true

/-- Admission has nothing against the entities of the constraint in this snapshot: they exist, and
their kinds are the expected ones. -/
def Fits (snapshot : Snapshot) (c : Constraint) : Prop :=
  ∃ found, Admission.kinds snapshot c.entities = .ok found ∧
    Admission.firstMismatch? c.kind 0 (Admission.places c.kind (found.head?.map Prod.snd)) found = none

/-! ### Computations that fail by reference only -/

/-- The computation succeeds under this condition, and blames an entity otherwise. -/
def Resolves {α : Type} (x : Except SolveError α) (condition : Prop) : Prop :=
  (condition → ∃ a, x = .ok a) ∧ (¬ condition → ∃ e, x = .error e ∧ e.blamesEntity = true)

namespace Resolves

variable {α β : Type} {x : Except SolveError α} {f : α → Except SolveError β} {p q : Prop}

theorem ok {a : α} (h : x = .ok a) : Resolves x True := ⟨fun _ => ⟨a, h⟩, fun hn => absurd trivial hn⟩

theorem pure (a : α) : Resolves (Pure.pure a : Except SolveError α) True := ok rfl

theorem bind (h : Resolves x p) (hf : ∀ a, Resolves (f a) q) : Resolves (x >>= f) (p ∧ q) := by
  by_cases hp : p
  · obtain ⟨a, rfl⟩ := h.1 hp
    exact ⟨fun hpq => (hf a).1 hpq.2, fun hn => (hf a).2 fun hq => hn ⟨hp, hq⟩⟩
  · obtain ⟨e, rfl, he⟩ := h.2 hp
    exact ⟨fun hpq => absurd hpq.1 hp, fun _ => ⟨e, rfl, he⟩⟩

theorem congr (h : Resolves x p) (hpq : p ↔ q) : Resolves x q := by
  rw [← hpq]
  exact h

end Resolves

section Lookups
variable {c : Constraint} (snapshot : Snapshot)

theorem resolves_subject (id : EntityId) : Resolves (subject snapshot id) ((snapshot.kind? id).isSome = true) := by
  unfold subject Snapshot.kind?
  cases snapshot.get? id with
  | none => exact ⟨fun h => (by cases h), fun _ => ⟨_, rfl, rfl⟩⟩
  | some e => exact ⟨fun _ => ⟨_, rfl⟩, fun h => absurd rfl h⟩

theorem subjectAt_eq (place : Nat) {id : EntityId} (h : c.entities[place]? = some id) :
    c.subjectAt snapshot place = subject snapshot id := by
  rw [subjectAt, idAt_eq_ok.mpr h]
  rfl

theorem resolves_subjectAt (place : Nat) {id : EntityId} (h : c.entities[place]? = some id) :
    Resolves (c.subjectAt snapshot place) ((snapshot.kind? id).isSome = true) := by
  rw [subjectAt_eq snapshot place h]
  exact resolves_subject snapshot id

theorem resolves_lineAt (place : Nat) {id : EntityId} (h : c.entities[place]? = some id) :
    Resolves (c.lineAt snapshot place) (snapshot.kind? id = some .line) := by
  rw [lineAt, subjectAt_eq snapshot place h]
  unfold subject Snapshot.kind?
  cases snapshot.get? id with
  | none => exact ⟨fun h => (by cases h), fun _ => ⟨_, rfl, rfl⟩⟩
  | some e =>
    cases e with
    | line start stop => exact ⟨fun _ => ⟨_, rfl⟩, fun h => absurd rfl h⟩
    | _ => exact ⟨fun h => (by cases h), fun _ => ⟨_, rfl, rfl⟩⟩

theorem resolves_roundAt (place : Nat) {id : EntityId} (h : c.entities[place]? = some id) :
    Resolves (c.roundAt snapshot place) ((snapshot.kind? id).any EntityKind.isCircular = true) := by
  rw [roundAt, subjectAt_eq snapshot place h]
  unfold subject Snapshot.kind?
  cases snapshot.get? id with
  | none => exact ⟨fun h => (by cases h), fun _ => ⟨_, rfl, rfl⟩⟩
  | some e =>
    cases e with
    | circle center radius => exact ⟨fun _ => ⟨_, rfl⟩, fun h => absurd rfl h⟩
    | arc center radius startAngle endAngle => exact ⟨fun _ => ⟨_, rfl⟩, fun h => absurd rfl h⟩
    | _ => exact ⟨fun h => (by cases h), fun _ => ⟨_, rfl, rfl⟩⟩

theorem resolves_others :
    Resolves (c.others snapshot) (∀ id ∈ c.entities.drop 1, (snapshot.kind? id).isSome = true) := by
  unfold others
  induction c.entities.drop 1 with
  | nil => exact (Resolves.ok rfl).congr (by simp)
  | cons id rest ih =>
    rw [List.mapM_cons]
    refine ((resolves_subject snapshot id).bind fun s => ih.bind fun others => .pure (s :: others)).congr ?_
    simp

end Lookups

/-! ### What admission looks at -/

section Fitting
variable {c : Constraint} (snapshot : Snapshot) {a b d : EntityId}

/-- Where admission is indifferent to kinds, the entities only have to exist. -/
theorem fits_any (hplaces : ∀ first, Admission.places c.kind first = []) :
    c.Fits snapshot ↔ ∀ id ∈ c.entities, (snapshot.kind? id).isSome = true := by
  simp only [Fits, hplaces, Admission.firstMismatch?_nil, and_true, Admission.exists_kinds_iff]

theorem fits_one (he : c.entities = [a]) :
    c.Fits snapshot ↔ ∃ k, snapshot.kind? a = some k ∧
      Admission.firstMismatch? c.kind 0 (Admission.places c.kind (some k)) [(a, k)] = none := by
  simp only [Fits, he, Admission.kinds_cons, Admission.kinds_nil]
  constructor
  · intro h
    obtain ⟨_, ⟨k, hk, _, rfl, rfl⟩, hmatch⟩ := h
    exact ⟨k, hk, hmatch⟩
  · intro ⟨k, hk, hmatch⟩
    exact ⟨_, ⟨k, hk, _, rfl, rfl⟩, hmatch⟩

theorem fits_two (he : c.entities = [a, b]) :
    c.Fits snapshot ↔ ∃ k l, snapshot.kind? a = some k ∧ snapshot.kind? b = some l ∧
      Admission.firstMismatch? c.kind 0 (Admission.places c.kind (some k)) [(a, k), (b, l)] = none := by
  simp only [Fits, he, Admission.kinds_cons, Admission.kinds_nil]
  constructor
  · intro h
    obtain ⟨_, ⟨k, hk, _, ⟨l, hl, _, rfl, rfl⟩, rfl⟩, hmatch⟩ := h
    exact ⟨k, l, hk, hl, hmatch⟩
  · intro ⟨k, l, hk, hl, hmatch⟩
    exact ⟨_, ⟨k, hk, _, ⟨l, hl, _, rfl, rfl⟩, rfl⟩, hmatch⟩

theorem fits_three (he : c.entities = [a, b, d]) :
    c.Fits snapshot ↔ ∃ k l m, snapshot.kind? a = some k ∧ snapshot.kind? b = some l ∧ snapshot.kind? d = some m ∧
      Admission.firstMismatch? c.kind 0 (Admission.places c.kind (some k)) [(a, k), (b, l), (d, m)] = none := by
  simp only [Fits, he, Admission.kinds_cons, Admission.kinds_nil]
  constructor
  · intro h
    obtain ⟨_, ⟨k, hk, _, ⟨l, hl, _, ⟨m, hm, _, rfl, rfl⟩, rfl⟩, rfl⟩, hmatch⟩ := h
    exact ⟨k, l, m, hk, hl, hm, hmatch⟩
  · intro ⟨k, l, m, hk, hl, hm, hmatch⟩
    exact ⟨_, ⟨k, hk, _, ⟨l, hl, _, ⟨m, hm, _, rfl, rfl⟩, rfl⟩, rfl⟩, hmatch⟩

theorem fits_line (he : c.entities = [a]) (hplaces : ∀ first, Admission.places c.kind first = [some .line]) :
    c.Fits snapshot ↔ snapshot.kind? a = some .line := by
  simp [fits_one snapshot he, hplaces, Expected.admits]

theorem fits_lines (he : c.entities = [a, b])
    (hplaces : ∀ first, Admission.places c.kind first = [some .line, some .line]) :
    c.Fits snapshot ↔ snapshot.kind? a = some .line ∧ snapshot.kind? b = some .line := by
  simp [fits_two snapshot he, hplaces, Expected.admits]

theorem fits_round (he : c.entities = [a]) (hplaces : ∀ first, Admission.places c.kind first = [some .circular]) :
    c.Fits snapshot ↔ (snapshot.kind? a).any EntityKind.isCircular = true := by
  simp [fits_one snapshot he, hplaces, Expected.admits, Option.any_eq_true]

theorem fits_rounds (he : c.entities = [a, b])
    (hplaces : ∀ first, Admission.places c.kind first = [some .circular, some .circular]) :
    c.Fits snapshot ↔
      (snapshot.kind? a).any EntityKind.isCircular = true ∧ (snapshot.kind? b).any EntityKind.isCircular = true := by
  simp only [fits_two snapshot he, hplaces, Admission.firstMismatch?_some, Admission.firstMismatch?_nil, and_true,
    Expected.admits, Option.any_eq_true]
  constructor
  · intro h
    obtain ⟨k, l, hk, hl, hround, hround'⟩ := h
    exact ⟨⟨k, hk, hround⟩, l, hl, hround'⟩
  · intro h
    obtain ⟨⟨k, hk, hround⟩, l, hl, hround'⟩ := h
    exact ⟨k, l, hk, hl, hround, hround'⟩

end Fitting

/-! ### The two tables agree -/

section Agreement
variable {c : Constraint} (snapshot : Snapshot) {a b : EntityId}

theorem resolves_demanded {α : Type} (key : ParameterKey) {value : Option α} (h : value.isSome = true) :
    Resolves (c.demanded key value) True := by
  obtain ⟨a, rfl⟩ := Option.isSome_iff_exists.mp h
  exact .ok rfl

theorem resolves_numberOf (hs : c.Sound) {key : ParameterKey} (h : c.kind.valueKey? = some key) :
    Resolves (c.numberOf key) True :=
  resolves_demanded key (hs.value key h)

theorem resolves_line (he : c.entities = [a]) (f : Line → Relation) :
    Resolves (do return f (← c.lineAt snapshot 0)) (snapshot.kind? a = some .line) := by
  have hline := resolves_lineAt (c := c) snapshot 0 (by rw [he]; rfl)
  exact (hline.bind fun l => .pure (f l)).congr (and_iff_left trivial)

theorem resolves_lines (he : c.entities = [a, b]) (f : Line → Line → Relation) :
    Resolves (do return f (← c.lineAt snapshot 0) (← c.lineAt snapshot 1))
      (snapshot.kind? a = some .line ∧ snapshot.kind? b = some .line) := by
  have hfirst := resolves_lineAt (c := c) snapshot 0 (by rw [he]; rfl)
  have hsecond := resolves_lineAt (c := c) snapshot 1 (by rw [he]; rfl)
  exact (hfirst.bind fun l₁ => hsecond.bind fun l₂ => .pure (f l₁ l₂)).congr
    (and_congr_right fun _ => and_iff_left trivial)

theorem resolves_round (he : c.entities = [a]) (f : Round → Relation) :
    Resolves (do return f (← c.roundAt snapshot 0)) ((snapshot.kind? a).any EntityKind.isCircular = true) := by
  have hround := resolves_roundAt (c := c) snapshot 0 (by rw [he]; rfl)
  exact (hround.bind fun r => .pure (f r)).congr (and_iff_left trivial)

theorem resolves_rounds (he : c.entities = [a, b]) (f : Round → Round → Relation) :
    Resolves (do return f (← c.roundAt snapshot 0) (← c.roundAt snapshot 1))
      ((snapshot.kind? a).any EntityKind.isCircular = true ∧ (snapshot.kind? b).any EntityKind.isCircular = true) := by
  have hfirst := resolves_roundAt (c := c) snapshot 0 (by rw [he]; rfl)
  have hsecond := resolves_roundAt (c := c) snapshot 1 (by rw [he]; rfl)
  exact (hfirst.bind fun r₁ => hsecond.bind fun r₂ => .pure (f r₁ r₂)).congr
    (and_congr_right fun _ => and_iff_left trivial)

/-- A row of entities of which only the first one is special. -/
theorem resolves_all {rest : List EntityId} (he : c.entities = a :: rest) (f : Subject → List Subject → Relation) :
    Resolves (do return f (← c.subjectAt snapshot 0) (← c.others snapshot))
      (∀ id ∈ c.entities, (snapshot.kind? id).isSome = true) := by
  have hfirst := resolves_subjectAt (c := c) snapshot 0 (by rw [he]; rfl)
  have hothers := resolves_others (c := c) snapshot
  refine (hfirst.bind fun s => hothers.bind fun others => .pure (f s others)).congr ?_
  simp [he]

/-- The two judge a tangent pair alike, whichever comes first. -/
theorem resolves_tangentPair (s₁ s₂ : Subject) :
    Resolves (c.tangentPair s₁ s₂)
      (Admission.firstMismatch? .tangent 0 (Admission.places .tangent (some s₁.entity.kind))
        [(s₁.id, s₁.entity.kind), (s₂.id, s₂.entity.kind)] = none) := by
  obtain ⟨id₁, e₁⟩ := s₁
  obtain ⟨id₂, e₂⟩ := s₂
  cases e₁ <;> cases e₂ <;>
    first
    | exact ⟨fun _ => ⟨_, rfl⟩, fun h => absurd rfl h⟩
    | exact ⟨fun h => (by cases h), fun _ => ⟨_, rfl, rfl⟩⟩

theorem resolves_tangent (hk : c.kind = .tangent) (he : c.entities = [a, b]) :
    Resolves (do c.tangentPair (← c.subjectAt snapshot 0) (← c.subjectAt snapshot 1)) (c.Fits snapshot) := by
  rw [fits_two snapshot he, subjectAt_eq snapshot 0 (by rw [he]; rfl), subjectAt_eq snapshot 1 (by rw [he]; rfl), hk]
  unfold subject Snapshot.kind?
  cases snapshot.get? a with
  | none => exact ⟨fun ⟨_, _, ha, _⟩ => (by cases ha), fun _ => ⟨_, rfl, rfl⟩⟩
  | some e =>
    cases snapshot.get? b with
    | none => exact ⟨fun ⟨_, _, _, hb, _⟩ => (by cases hb), fun _ => ⟨_, rfl, rfl⟩⟩
    | some f => exact (resolves_tangentPair ⟨a, e⟩ ⟨b, f⟩).congr (by simp)

/-- **A sound constraint has a relation exactly where admission would take it.** -/
theorem resolves_relation? (hs : c.Sound) (snapshot : Snapshot) : Resolves (c.relation? snapshot) (c.Fits snapshot) := by
  have harity := hs.arity
  unfold relation?
  cases hk : c.kind <;>
    simp only [hk, ConstraintKind.arity, Arity.accepts, beq_iff_eq, decide_eq_true_iff] at harity ⊢
  case parallel | perpendicular | collinear | equalLength =>
    obtain ⟨a, b, he⟩ := List.length_eq_two.mp harity
    exact (resolves_lines snapshot he _).congr (fits_lines snapshot he fun _ => by rw [hk]; rfl).symm
  case horizontal | vertical =>
    obtain ⟨a, he⟩ := List.length_eq_one_iff.mp harity
    exact (resolves_line snapshot he _).congr (fits_line snapshot he fun _ => by rw [hk]; rfl).symm
  case tangent =>
    obtain ⟨a, b, he⟩ := List.length_eq_two.mp harity
    exact resolves_tangent snapshot hk he
  case concentric | equalRadius =>
    obtain ⟨a, b, he⟩ := List.length_eq_two.mp harity
    exact (resolves_rounds snapshot he _).congr (fits_rounds snapshot he fun _ => by rw [hk]; rfl).symm
  case coincident =>
    obtain ⟨a, rest, he⟩ := List.exists_cons_of_length_pos (Nat.lt_of_lt_of_le Nat.zero_lt_two harity)
    exact (resolves_all snapshot he fun s => .coincident s.reference).congr
      (fits_any snapshot fun _ => by rw [hk]; rfl).symm
  case symmetric =>
    obtain ⟨a, b, axis, he⟩ := List.length_eq_three.mp harity
    have hfirst := resolves_subjectAt (c := c) snapshot 0 (by rw [he]; rfl)
    have hsecond := resolves_subjectAt (c := c) snapshot 1 (by rw [he]; rfl)
    have haxis := resolves_lineAt (c := c) snapshot 2 (by rw [he]; rfl)
    refine (hfirst.bind fun _ => hsecond.bind fun _ => haxis.bind fun _ => .pure _).congr ?_
    simp [fits_three snapshot he, hk, Admission.places, Expected.admits, Option.isSome_iff_exists]
  case midpoint =>
    obtain ⟨a, b, he⟩ := List.length_eq_two.mp harity
    have hmoved := resolves_subjectAt (c := c) snapshot 0 (by rw [he]; rfl)
    have hhost := resolves_lineAt (c := c) snapshot 1 (by rw [he]; rfl)
    refine (hmoved.bind fun _ => hhost.bind fun _ => .pure _).congr ?_
    simp [fits_two snapshot he, hk, Admission.places, Expected.admits, Option.isSome_iff_exists]
  case distance =>
    obtain ⟨a, b, he⟩ := List.length_eq_two.mp harity
    have htarget := resolves_numberOf hs (by rw [hk]; rfl)
    have hfirst := resolves_subjectAt (c := c) snapshot 0 (by rw [he]; rfl)
    have hsecond := resolves_subjectAt (c := c) snapshot 1 (by rw [he]; rfl)
    refine (htarget.bind fun _ => hfirst.bind fun _ => hsecond.bind fun _ => .pure _).congr ?_
    simp [fits_any snapshot fun _ => by rw [hk]; rfl, he]
  case angle | offsetDistance =>
    obtain ⟨a, b, he⟩ := List.length_eq_two.mp harity
    have htarget := resolves_numberOf hs (by rw [hk]; rfl)
    refine (htarget.bind fun target => resolves_lines snapshot he _).congr ?_
    rw [fits_lines snapshot he fun _ => by rw [hk]; rfl, true_and]
  case radius | diameter =>
    obtain ⟨a, he⟩ := List.length_eq_one_iff.mp harity
    have htarget := resolves_numberOf hs (by rw [hk]; rfl)
    refine (htarget.bind fun target => resolves_round snapshot he _).congr ?_
    rw [fits_round snapshot he fun _ => by rw [hk]; rfl, true_and]
  case length =>
    obtain ⟨a, he⟩ := List.length_eq_one_iff.mp harity
    have htarget := resolves_numberOf hs (by rw [hk]; rfl)
    refine (htarget.bind fun target => resolves_line snapshot he _).congr ?_
    rw [fits_line snapshot he fun _ => by rw [hk]; rfl, true_and]
  case fix =>
    obtain ⟨a, he⟩ := List.length_eq_one_iff.mp harity
    have htarget := resolves_demanded (c := c) .point (hs.point hk)
    have hmoved := resolves_subjectAt (c := c) snapshot 0 (by rw [he]; rfl)
    refine (htarget.bind fun _ => hmoved.bind fun _ => .pure _).congr ?_
    simp [fits_any snapshot fun _ => by rw [hk]; rfl, he]
  case pattern =>
    obtain ⟨a, rest, he⟩ := List.exists_cons_of_length_pos (Nat.lt_of_lt_of_le Nat.zero_lt_two harity)
    have hoffset := resolves_demanded (c := c) .offset (hs.offset hk)
    refine (hoffset.bind fun offset => resolves_all snapshot he fun s => .pattern offset s.reference).congr ?_
    rw [fits_any snapshot fun _ => by rw [hk]; rfl, true_and]

end Agreement

end Constraint

end Drafting
