import Drafting.Proofs.Entity.Twin
import Drafting.Proofs.Number.Congruence
import Drafting.Proofs.Number.Extremum
import Drafting.Proofs.Solving.Resolution
import Drafting.Proofs.Solving.Verdict
import Mathlib.Data.List.Permutation

/-! Constraints that ask the same.

Duplicates have one kind, parameters that agree, and the same entities in any
order. Parameters that agree differ at most in the sign of a zero, which no residual
takes notice of. The order is another matter: most kinds give each place a role of
its own, and there duplicates can be told apart by their verdicts. Where the roles
are the same (`Constraint.SameRoles`), duplicates state relations that repeat one
another (`relation?_together`), and one of them holds exactly if the other does
(`Constraint.holds_congr`). -/
namespace Drafting

/-! ### Measures -/

/-- The same vector, or one that agrees with it. -/
def Vec.Twin (v w : Vec) : Prop := Number.Twin v.x w.x ∧ Number.Twin v.y w.y

theorem Point.Twin.distance_eq {p q : Point} (h : p.Twin q) (s : Point) : s.distance p = s.distance q := by
  show ((p.x - s.x) * (p.x - s.x) + (p.y - s.y) * (p.y - s.y)).sqrt =
    ((q.x - s.x) * (q.x - s.x) + (q.y - s.y) * (q.y - s.y)).sqrt
  rw [(h.1.sub (.refl s.x)).sameSize.mul_self_eq, (h.2.sub (.refl s.y)).sameSize.mul_self_eq]

namespace Relation

theorem twin_patternPoint {v w : Vec} (h : v.Twin w) (origin : Point) (place : Nat) :
    (patternPoint origin v place).Twin (patternPoint origin w place) :=
  ⟨(Number.Twin.refl _).add (h.1.mul (.refl _)), (Number.Twin.refl _).add (h.2.mul (.refl _))⟩

theorem twin_onSideOf {x y : Float} (h : Number.Twin x y) (current : Float) :
    Number.Twin (onSideOf current x) (onSideOf current y) := by
  unfold onSideOf
  split
  · exact h
  · exact h.neg

theorem touchingDistance_comm (d r₁ r₂ : Float) : touchingDistance d r₁ r₂ = touchingDistance d r₂ r₁ := by
  simp only [touchingDistance, Number.add_comm r₁ r₂, (Number.sameSize_sub_swap r₁ r₂).abs_eq]

theorem twin_dot {p q : Point} (h : p.Twin q) (center : Point) (v : Vec) :
    Number.Twin ((p - center).dot v) ((q - center).dot v) :=
  ((h.1.sub (.refl _)).mul (.refl _)).add ((h.2.sub (.refl _)).mul (.refl _))

/-- The side of a touch point is asked for its size and for being above zero. -/
theorem offsetOn_congr {a b : Float} (h : Number.Twin a b) (current radius : Float) :
    (if a.abs < epsilon then onSideOf current radius else if 0.0 < a then -radius else radius) =
      if b.abs < epsilon then onSideOf current radius else if 0.0 < b then -radius else radius := by
  rw [h.sameSize.abs_eq]
  exact ite_congr rfl (fun _ => rfl) fun _ =>
    ite_congr (propext ((Number.Twin.refl _).lt_iff h)) (fun _ => rfl) fun _ => rfl

theorem tangentOffsets_congr (circle : Round) (line : Line) {p q : Option Point} (h : Option.Rel Point.Twin p q) :
    tangentOffsets circle line p = tangentOffsets circle line q := by
  cases h with
  | none => rfl
  | some h =>
    unfold tangentOffsets
    cases line.signedDistance circle.center with
    | error e => simp only [bind, Except.bind]
    | ok current => cases line.normal with
      | error e => simp only [bind, Except.bind]
      | ok normal =>
        simp only [bind, Except.bind, pure, Except.pure]
        rw [offsetOn_congr (twin_dot h circle.center normal) current circle.radius]

/-! ### Relations that repeat one another -/

/-- One relation says what the other one does: its numbers agree, and what stands in it has changed
places at most where places are alike. -/
inductive Repeats : Relation → Relation → Prop where
  | refl (r : Relation) : Repeats r r
  | tangentLine (circle : Round) (line : Line) {p q : Option Point} (h : Option.Rel Point.Twin p q) :
    Repeats (.tangentLine circle line p) (.tangentLine circle line q)
  | tangentCircles (c₁ c₂ : Round) : Repeats (.tangentCircles c₁ c₂) (.tangentCircles c₂ c₁)
  | concentric (c₁ c₂ : Round) : Repeats (.concentric c₁ c₂) (.concentric c₂ c₁)
  | coincident (p : Point) {moved moved' : List Subject} (h : moved.Perm moved') :
    Repeats (.coincident p moved) (.coincident p moved')
  | coincidentPair (s₁ s₂ : Subject) : Repeats (.coincident s₁.reference [s₂]) (.coincident s₂.reference [s₁])
  | equalLength (l₁ l₂ : Line) : Repeats (.equalLength l₁ l₂) (.equalLength l₂ l₁)
  | equalRadius (c₁ c₂ : Round) : Repeats (.equalRadius c₁ c₂) (.equalRadius c₂ c₁)
  | distance {x y : Float} (h : Number.Twin x y) (s₁ s₂ : Subject) : Repeats (.distance x s₁ s₂) (.distance y s₁ s₂)
  | distanceSwapped {x y : Float} (h : Number.Twin x y) (s₁ s₂ : Subject) :
    Repeats (.distance x s₁ s₂) (.distance y s₂ s₁)
  | angle {x y : Float} (h : Number.Twin x y) (l₁ l₂ : Line) : Repeats (.angle x l₁ l₂) (.angle y l₁ l₂)
  | radius {x y : Float} (h : Number.Twin x y) (c : Round) : Repeats (.radius x c) (.radius y c)
  | diameter {x y : Float} (h : Number.Twin x y) (c : Round) : Repeats (.diameter x c) (.diameter y c)
  | length {x y : Float} (h : Number.Twin x y) (l : Line) : Repeats (.length x l) (.length y l)
  | fix {p q : Point} (h : p.Twin q) (s : Subject) : Repeats (.fix p s) (.fix q s)
  | pattern {v w : Vec} (h : v.Twin w) (origin : Point) (moved : List Subject) :
    Repeats (.pattern v origin moved) (.pattern w origin moved)
  | offsetDistance {x y : Float} (h : Number.Twin x y) (l₁ l₂ : Line) :
    Repeats (.offsetDistance x l₁ l₂) (.offsetDistance y l₁ l₂)

/-- The residual can be measured and is below a bound. -/
def Below (r : Relation) (bound : Float) : Prop := ∃ x, r.residual = .ok x ∧ x < bound

/-- Relations that repeat one another have one residual, except for the order in which a largest
distance is looked for. -/
theorem Repeats.below_iff {r q : Relation} (h : Repeats r q) (bound : Float) : r.Below bound ↔ q.Below bound := by
  have hsame {r q : Relation} (h : r.residual = q.residual) : r.Below bound ↔ q.Below bound := by
    rw [Below, Below, h]
  cases h with
  | refl => rfl
  | coincident p h =>
    simp only [Below, residual, pure, Except.pure, Except.ok.injEq, exists_eq_left']
    exact Number.largest_lt_congr (h.map _)
  | tangentLine circle line h => exact hsame (by simp only [residual, tangentOffsets_congr circle line h])
  | tangentCircles c₁ c₂ =>
    exact hsame (by simp only [residual, Point.distance_comm c₁.center, touchingDistance_comm _ c₁.radius])
  | concentric c₁ c₂ => exact hsame (by simp only [residual, Point.distance_comm c₁.center])
  | coincidentPair s₁ s₂ =>
    exact hsame (by simp only [residual, List.map_cons, List.map_nil, Point.distance_comm s₁.reference])
  | equalLength l₁ l₂ =>
    exact hsame (by simp only [residual, (Number.sameSize_sub_swap l₁.segment.length _).abs_eq])
  | equalRadius c₁ c₂ => exact hsame (by simp only [residual, (Number.sameSize_sub_swap c₁.radius _).abs_eq])
  | distance h s₁ s₂ => exact hsame (by simp only [residual, ((Number.Twin.refl _).sub h).sameSize.abs_eq])
  | distanceSwapped h s₁ s₂ =>
    exact hsame (by
      simp only [residual, ((Number.Twin.refl _).sub h).sameSize.abs_eq, Point.distance_comm s₁.reference])
  | angle h l₁ l₂ => exact hsame (by simp only [residual, ((Number.Twin.refl _).sub h).wrap.sameSize.abs_eq])
  | radius h | diameter h | length h =>
    exact hsame (by simp only [residual, ((Number.Twin.refl _).sub h).sameSize.abs_eq])
  | fix h => exact hsame (by simp only [residual, h.distance_eq])
  | pattern h origin moved => exact hsame (by simp only [residual, (twin_patternPoint h _ _).distance_eq])
  | offsetDistance h l₁ l₂ =>
    exact hsame (by
      simp only [residual, ((Number.Twin.refl _).sub (twin_onSideOf h _)).sameSize.abs_eq])

end Relation

/-! ### Parameters that agree -/

/-- Tables that match have related values under every key, or none under either. -/
theorem Table.rel_of_matchesBy {κ ν : Type} [DecidableEq κ] {r : ν → ν → Bool} {s t : Table κ ν}
    (h : s.matchesBy r t = true) (k : κ) : Option.Rel (fun a b => r a b = true) (s.get? k) (t.get? k) := by
  obtain ⟨hsize, hall⟩ := Bool.and_eq_true_iff.mp h
  have hfound (e : κ × ν) (he : e ∈ s.entries) : ∃ b, t.get? e.1 = some b ∧ r e.2 b = true :=
    (Option.any_eq_true _ _).mp (List.all_eq_true.mp hall e he)
  -- the keys of one are among those of the other, and there are as many
  have hsub : s.keys ⊆ t.keys := by
    intro k hk
    obtain ⟨e, he, rfl⟩ := List.mem_map.mp hk
    obtain ⟨b, hb, _⟩ := hfound e he
    exact mem_iff.mpr (Option.isSome_iff_exists.mpr ⟨b, hb⟩)
  have hkeys : s.keys.Perm t.keys := by
    refine (s.nodup_keys.subperm hsub).perm_of_length_le ?_
    simpa [keys, size] using (beq_iff_eq.mp hsize).ge
  cases hs : s.get? k with
  | some a =>
    obtain ⟨b, hb, hr⟩ := hfound (k, a) (get?_eq_some_iff.mp hs)
    rw [hb]
    exact .some hr
  | none =>
    have hnot : k ∉ t.keys := fun hk => by simpa [hs] using mem_iff.mp (hkeys.mem_iff.mpr hk : k ∈ s)
    have ht : t.get? k = none := by
      rw [← Option.not_isSome_iff_eq_none]
      exact fun hk => hnot (mem_iff.mpr hk)
    rw [ht]
    exact .none

namespace Parameters

variable {ps qs : Parameters}

theorem rel_number? (h : ps.agrees qs = true) (key : ParameterKey) :
    Option.Rel Number.Twin (ps.number? key) (qs.number? key) := by
  have hvalues := Table.rel_of_matchesBy h key
  unfold number?
  generalize ps.get? key = found, qs.get? key = found' at hvalues ⊢
  cases hvalues with
  | none => exact .none
  | @some v w hvw => cases v <;> cases w <;> first | exact .none | exact .some (.inr hvw) | cases hvw

theorem rel_point? (h : ps.agrees qs = true) (key : ParameterKey) :
    Option.Rel Point.Twin (ps.point? key) (qs.point? key) := by
  have hvalues := Table.rel_of_matchesBy h key
  unfold point?
  generalize ps.get? key = found, qs.get? key = found' at hvalues ⊢
  cases hvalues with
  | none => exact .none
  | @some v w hvw =>
    cases v <;> cases w <;> first | exact .none | exact .some (Point.twin_of_agrees hvw) | cases hvw

theorem rel_vector? (h : ps.agrees qs = true) (key : ParameterKey) :
    Option.Rel Vec.Twin (ps.vector? key) (qs.vector? key) := by
  have hvalues := Table.rel_of_matchesBy h key
  unfold vector?
  generalize ps.get? key = found, qs.get? key = found' at hvalues ⊢
  cases hvalues with
  | none => exact .none
  | @some v w hvw =>
    cases v <;> cases w <;>
      first
      | exact .none
      | exact .some ((Bool.and_eq_true_iff.mp hvw).imp .inr .inr)
      | cases hvw

end Parameters

/-! ### Look-ups with the same luck -/

/-- Two look-ups that both find something, and what they find is related, or both miss something. -/
inductive Together {α β : Type} (r : α → β → Prop) : Except SolveError α → Except SolveError β → Prop where
  | found {a : α} {b : β} (h : r a b) : Together r (.ok a) (.ok b)
  | missed (e e' : SolveError) : Together r (.error e) (.error e')

namespace Together

variable {α β γ δ : Type}

theorem refl {r : α → α → Prop} (h : ∀ a, r a a) (x : Except SolveError α) : Together r x x := by
  cases x with
  | ok a => exact .found (h a)
  | error e => exact .missed e e

theorem bind {r : α → β → Prop} {q : γ → δ → Prop} {x : Except SolveError α} {y : Except SolveError β}
    {f : α → Except SolveError γ} {g : β → Except SolveError δ} (h : Together r x y)
    (hf : ∀ a b, r a b → Together q (f a) (g b)) : Together q (x >>= f) (y >>= g) := by
  cases h with
  | found h => exact hf _ _ h
  | missed e e' => exact .missed e e'

theorem trans {r : α → β → Prop} {q : β → γ → Prop} {p : α → γ → Prop} {x : Except SolveError α}
    {y : Except SolveError β} {z : Except SolveError γ} (h : Together r x y) (h' : Together q y z)
    (hp : ∀ a b c, r a b → q b c → p a c) : Together p x z := by
  cases h with
  | found hr => cases h' with
    | found hq => exact .found (hp _ _ _ hr hq)
  | missed e e' => cases h' with
    | missed _ e'' => exact .missed e e''

/-- After one look-up. -/
theorem after {q : γ → δ → Prop} (x : Except SolveError α) {f : α → Except SolveError γ}
    {g : α → Except SolveError δ} (h : ∀ a, Together q (f a) (g a)) : Together q (x >>= f) (x >>= g) := by
  cases x with
  | ok a => exact h a
  | error e => exact .missed e e

theorem ok_iff {r : α → β → Prop} {x : Except SolveError α} {y : Except SolveError β} (h : Together r x y)
    {p : α → Prop} {q : β → Prop} (hpq : ∀ a b, r a b → (p a ↔ q b)) :
    (∃ a, x = .ok a ∧ p a) ↔ ∃ b, y = .ok b ∧ q b := by
  cases h with
  | found hr => simpa using hpq _ _ hr
  | missed => simp

/-- The order in which two things are looked up makes no difference. -/
theorem swap {q : γ → δ → Prop} (x : Except SolveError α) (y : Except SolveError β)
    {f : α → β → Except SolveError γ} {g : β → α → Except SolveError δ} (h : ∀ a b, Together q (f a b) (g b a)) :
    Together q (do f (← x) (← y)) (do g (← y) (← x)) := by
  cases x with
  | error e => cases y with
    | error e' => exact .missed e e'
    | ok b => exact .missed e e
  | ok a => cases y with
    | error e' => exact .missed e' e'
    | ok b => exact h a b

theorem mapM_perm {l l' : List γ} (h : l.Perm l') (f : γ → Except SolveError α) :
    Together List.Perm (l.mapM f) (l'.mapM f) := by
  induction h with
  | nil => exact refl .refl _
  | cons k _ ih =>
    rw [List.mapM_cons, List.mapM_cons]
    exact after (f k) fun a => ih.bind fun _ _ hrest => .found (hrest.cons a)
  | swap k k' rest =>
    simp only [List.mapM_cons, bind_assoc, pure_bind]
    exact swap (f k') (f k) fun b a => after (rest.mapM f) fun as => .found (.swap a b as)
  | trans _ _ ih ih' => exact ih.trans ih' fun _ _ _ => List.Perm.trans

end Together

/-! ### Duplicates -/

/-- What the kind says of two entities it says of them in either order, to the last bit. -/
def ConstraintKind.isMutual : ConstraintKind → Bool
  | tangent | concentric | coincident | equalLength | equalRadius | distance => true
  | _ => false

namespace Constraint

variable {c d : Constraint}

/-- What the places of two duplicates ask of their entities is the same: the entities stand in one order,
or there are two and the kind is mutual, or the kind is coincidence and the one that stays is the same. -/
def SameRoles (c d : Constraint) : Prop :=
  c.entities = d.entities ∨ c.kind.isMutual = true ∧ c.entities.length = 2 ∨
    c.kind = .coincident ∧ c.entities.head? = d.entities.head?

instance : Decidable (SameRoles c d) := inferInstanceAs (Decidable (_ ∨ _ ∧ _ ∨ _ ∧ _))

theorem duplicates_iff :
    c.duplicates d = true ↔
      c.kind = d.kind ∧ c.parameters.agrees d.parameters = true ∧ c.entities.Perm d.entities := by
  simp [duplicates, List.isPerm_iff, and_assoc]

section Lookups
variable (snapshot : Snapshot)

theorem subjectAt_of_entities (hkind : c.kind = d.kind) (h : c.entities = d.entities) (place : Nat) :
    c.subjectAt snapshot place = d.subjectAt snapshot place := by
  rw [subjectAt, subjectAt, idAt, idAt, hkind, h]

theorem others_of_entities (h : c.entities = d.entities) : c.others snapshot = d.others snapshot := by
  rw [others, others, h]

theorem together_demanded {α : Type} {r : α → α → Prop} {v w : Option α} (h : Option.Rel r v w) (key : ParameterKey) :
    Together r (c.demanded key v) (d.demanded key w) := by
  cases h with
  | some h => exact .found h
  | none => exact .missed _ _

theorem together_numberOf (h : c.parameters.agrees d.parameters = true) (key : ParameterKey) :
    Together Number.Twin (c.numberOf key) (d.numberOf key) :=
  together_demanded (Parameters.rel_number? h key) key

theorem together_tangentPair (h : Option.Rel Point.Twin (c.parameters.point? .point) (d.parameters.point? .point))
    (s₁ s₂ : Subject) : Together Relation.Repeats (c.tangentPair s₁ s₂) (d.tangentPair s₁ s₂) := by
  unfold tangentPair
  cases s₁.entity.circular? <;> cases s₂.entity.circular?
  · exact .missed _ _
  · exact .after _ fun l => .found (.tangentLine _ l h)
  · exact .after _ fun l => .found (.tangentLine _ l h)
  · exact .found (.refl _)

/-- A circle and a line are told apart by what they are, two circles not at all. -/
theorem together_tangentPair_swap
    (h : Option.Rel Point.Twin (c.parameters.point? .point) (d.parameters.point? .point)) (s₁ s₂ : Subject) :
    Together Relation.Repeats (c.tangentPair s₁ s₂) (d.tangentPair s₂ s₁) := by
  unfold tangentPair
  cases s₁.entity.circular? <;> cases s₂.entity.circular?
  · exact .missed _ _
  · exact .after _ fun l => .found (.tangentLine _ l h)
  · exact .after _ fun l => .found (.tangentLine _ l h)
  · exact .found (.tangentCircles _ _)

/-- Of the same entities in the same places. -/
theorem together_of_entities (hkind : c.kind = d.kind) (hparameters : c.parameters.agrees d.parameters = true)
    (h : c.entities = d.entities) : Together Relation.Repeats (c.relation? snapshot) (d.relation? snapshot) := by
  have hsubjects := subjectAt_of_entities snapshot hkind h
  have hothers := others_of_entities snapshot h
  have hnumber := together_numberOf hparameters
  unfold relation?
  rw [← hkind]
  simp only [lineAt, roundAt, hsubjects, hothers]
  cases c.kind with
  | parallel | perpendicular | collinear | equalLength | horizontal | vertical | concentric | equalRadius
  | coincident | symmetric | midpoint => exact .refl .refl _
  | tangent => exact .after _ fun s₁ => .after _ fun s₂ => together_tangentPair (Parameters.rel_point? hparameters _) s₁ s₂
  | distance =>
    exact (hnumber _).bind fun _ _ h => .after _ fun s₁ => .after _ fun s₂ => .found (.distance h s₁ s₂)
  | angle => exact (hnumber _).bind fun _ _ h => .after _ fun l₁ => .after _ fun l₂ => .found (.angle h l₁ l₂)
  | radius => exact (hnumber _).bind fun _ _ h => .after _ fun r => .found (.radius h r)
  | diameter => exact (hnumber _).bind fun _ _ h => .after _ fun r => .found (.diameter h r)
  | length => exact (hnumber _).bind fun _ _ h => .after _ fun l => .found (.length h l)
  | fix =>
    exact (together_demanded (Parameters.rel_point? hparameters _) _).bind fun _ _ h =>
      .after _ fun s => .found (.fix h s)
  | pattern =>
    exact (together_demanded (Parameters.rel_vector? hparameters _) _).bind fun _ _ h =>
      .after _ fun s => .after _ fun moved => .found (.pattern h s.reference moved)
  | offsetDistance =>
    exact (hnumber _).bind fun _ _ h => .after _ fun l₁ => .after _ fun l₂ => .found (.offsetDistance h l₁ l₂)

/-- Of two entities that have changed places. -/
theorem together_of_swapped {a b : EntityId} (hkind : c.kind = d.kind)
    (hparameters : c.parameters.agrees d.parameters = true) (hmutual : c.kind.isMutual = true)
    (hc : c.entities = [a, b]) (hd : d.entities = [b, a]) :
    Together Relation.Repeats (c.relation? snapshot) (d.relation? snapshot) := by
  have hfirst : c.subjectAt snapshot 0 = subject snapshot a ∧ d.subjectAt snapshot 1 = subject snapshot a :=
    ⟨subjectAt_eq snapshot 0 (by rw [hc]; rfl), subjectAt_eq snapshot 1 (by rw [hd]; rfl)⟩
  have hsecond : c.subjectAt snapshot 1 = subject snapshot b ∧ d.subjectAt snapshot 0 = subject snapshot b :=
    ⟨subjectAt_eq snapshot 1 (by rw [hc]; rfl), subjectAt_eq snapshot 0 (by rw [hd]; rfl)⟩
  unfold relation?
  rw [← hkind]
  simp only [lineAt, roundAt, hfirst, hsecond]
  cases hk : c.kind <;> rw [hk] at hmutual <;> cases hmutual
  case tangent => exact .swap _ _ fun s₁ s₂ => together_tangentPair_swap (Parameters.rel_point? hparameters _) s₁ s₂
  case concentric => exact .swap _ _ fun r₁ r₂ => .found (.concentric r₁ r₂)
  case equalLength => exact .swap _ _ fun l₁ l₂ => .found (.equalLength l₁ l₂)
  case equalRadius => exact .swap _ _ fun r₁ r₂ => .found (.equalRadius r₁ r₂)
  case distance =>
    exact (together_numberOf hparameters _).bind fun _ _ h => .swap _ _ fun s₁ s₂ => .found (.distanceSwapped h s₁ s₂)
  case coincident =>
    simp only [others, hc, hd, List.drop_succ_cons, List.drop_zero, List.mapM_cons, List.mapM_nil, bind_assoc, pure_bind]
    exact .swap _ _ fun s₁ s₂ => .found (.coincidentPair s₁ s₂)

/-- Of points that meet in one and the same point. -/
theorem together_of_head {a : EntityId} {rest rest' : List EntityId} (hk : c.kind = .coincident)
    (hkind : c.kind = d.kind) (hc : c.entities = a :: rest) (hd : d.entities = a :: rest') (h : rest.Perm rest') :
    Together Relation.Repeats (c.relation? snapshot) (d.relation? snapshot) := by
  have hfirst : c.subjectAt snapshot 0 = subject snapshot a ∧ d.subjectAt snapshot 0 = subject snapshot a :=
    ⟨subjectAt_eq snapshot 0 (by rw [hc]; rfl), subjectAt_eq snapshot 0 (by rw [hd]; rfl)⟩
  simp only [relation?, ← hkind, hk, hfirst, others, hc, hd]
  exact .after _ fun s => (Together.mapM_perm h _).bind fun _ _ hmoved => .found (.coincident s.reference hmoved)

/-- **Duplicates with the same roles state relations that repeat one another, or both state none.** -/
theorem relation?_together (h : c.duplicates d = true) (hroles : c.SameRoles d) :
    Together Relation.Repeats (c.relation? snapshot) (d.relation? snapshot) := by
  obtain ⟨hkind, hparameters, hperm⟩ := duplicates_iff.mp h
  rcases hroles with hsame | ⟨hmutual, htwo⟩ | ⟨hk, hhead⟩
  · exact together_of_entities snapshot hkind hparameters hsame
  · obtain ⟨a, b, hc⟩ := List.length_eq_two.mp htwo
    rw [hc] at hperm
    rcases List.pair_perm.mp hperm with hd | hd
    · exact together_of_entities snapshot hkind hparameters (hc.trans hd.symm)
    · exact together_of_swapped snapshot hkind hparameters hmutual hc hd
  · cases hc : c.entities with
    | nil =>
      rw [hc] at hperm
      exact together_of_entities snapshot hkind hparameters (hc.trans hperm.nil_eq)
    | cons a rest =>
      obtain ⟨rest', hd⟩ : ∃ rest', d.entities = a :: rest' := List.head?_eq_some_iff.mp (by rw [← hhead, hc]; rfl)
      rw [hc, hd] at hperm
      exact together_of_head snapshot hk hkind hc hd hperm.cons_inv

end Lookups

/-- A constraint holds if it states a relation there with a residual below the tolerance. -/
theorem holds_iff_below {settings : SolverSettings} {snapshot : Snapshot} :
    c.Holds settings snapshot ↔ ∃ r, c.relation? snapshot = .ok r ∧ r.Below settings.tolerance := by
  simp only [Holds, residual, bind_eq_ok, mapError_eq_ok, Relation.Below]
  constructor
  · rintro ⟨x, ⟨r, hr, hx⟩, hless⟩
    exact ⟨r, hr, x, hx, hless⟩
  · rintro ⟨r, hr, x, hx, hless⟩
    exact ⟨x, ⟨r, hr, hx⟩, hless⟩

/-- **Duplicates with the same roles hold in the same geometries.** -/
theorem holds_congr (h : c.duplicates d = true) (hroles : c.SameRoles d) (settings : SolverSettings) (snapshot : Snapshot) :
    c.Holds settings snapshot ↔ d.Holds settings snapshot := by
  rw [holds_iff_below, holds_iff_below]
  exact (relation?_together snapshot h hroles).ok_iff fun _ _ hrepeats => hrepeats.below_iff _

end Constraint

end Drafting
