import Drafting.Entity.Update
import Drafting.Proofs.Solving.Step
import Mathlib.Data.List.Nodup

/-! Renamed drawings.

A renaming gives every entity another name and takes no two to one. A renamed
table holds the same values under the new names and nothing else
(`Table.Renamed`); in which order the entries stand is left open, so what is said
of renamed tables holds of tables that differ in their order only as well.

Looking up, measuring and correcting commute with renaming, one lemma each, up to
`Constraint.step_renamed`. None of them needs that the new names are different;
that is what a write needs (`Table.Renamed.insert`), which must not be seen under
another name. -/
namespace Drafting

/-! ### Tables -/

namespace Table

variable {κ ν μ : Type} [DecidableEq κ] {f : κ → κ} {s t : Table κ ν}

/-- The values of `s` under their new names in `t`, and no other keys there. -/
structure Renamed (f : κ → κ) (s t : Table κ ν) : Prop where
  image : ∀ k, t.get? (f k) = s.get? k
  only : ∀ k ∈ t, ∃ k₀, f k₀ = k

/-- The table with a new name for every key. -/
def rekeyed (hf : Function.Injective f) (t : Table κ ν) : Table κ ν where
  entries := t.entries.map fun e => (f e.1, e.2)
  nodup := by
    have h := t.nodup.map hf
    rwa [List.map_map] at h ⊢

theorem renamed_rekeyed (hf : Function.Injective f) (t : Table κ ν) : t.Renamed f (t.rekeyed hf) where
  image k := by
    show find? (f k) (t.entries.map _) = find? k t.entries
    induction t.entries with
    | nil => rfl
    | cons e rest ih => simp only [List.map_cons, find?, hf.eq_iff, ih]
  only k hk := by
    obtain ⟨_, he, rfl⟩ := List.mem_map.mp hk
    obtain ⟨e, _, rfl⟩ := List.mem_map.mp he
    exact ⟨e.1, rfl⟩

namespace Renamed

theorem empty (f : κ → κ) : Renamed f (.empty : Table κ ν) .empty where
  image _ := rfl
  only _ hk := by cases hk

/-- What is written under one name is not seen under another. -/
theorem insert (h : Renamed f s t) (hf : Function.Injective f) (k : κ) (v : ν) :
    Renamed f (s.insert k v) (t.insert (f k) v) where
  image k' := by simp only [get?_insert, hf.eq_iff, h.image]
  only k' hk' := by
    by_cases hk : f k = k'
    · exact ⟨k, hk⟩
    · rw [mem_iff, get?_insert_of_ne t hk, ← mem_iff] at hk'
      exact h.only k' hk'

theorem insertAll (h : Renamed f s t) (hf : Function.Injective f) (l : List (κ × ν)) :
    Renamed f (s.insertAll l) (t.insertAll (l.map fun e => (f e.1, e.2))) := by
  induction l generalizing s t with
  | nil => exact h
  | cons e rest ih => exact ih (h.insert hf e.1 e.2)

theorem filterMap (h : Renamed f s t) {g g' : κ → ν → Option μ} (hg : ∀ k v, g' (f k) v = g k v) :
    Renamed f (s.filterMap g) (t.filterMap g') where
  image k := by
    have hfun : g' (f k) = g k := funext (hg k)
    rw [get?_filterMap, get?_filterMap, h.image, hfun]
  only k hk := by
    refine h.only k (mem_iff.mpr ?_)
    rw [mem_iff, get?_filterMap] at hk
    exact Option.isSome_of_isSome_bind hk

theorem restrict (h : Renamed f s t) (hf : Function.Injective f) (ks : List κ) :
    Renamed f (s.restrict ks) (t.restrict (ks.map f)) :=
  h.filterMap fun k v => by simp only [List.mem_map_of_injective hf]

end Renamed

end Table

theorem Snapshot.changes_renamed {f : EntityId → EntityId} {old old' new new' : Snapshot} (hold : old.Renamed f old')
    (hnew : new.Renamed f new') : (changes old new).Renamed f (changes old' new') :=
  hold.filterMap fun id e => congrArg (Option.bind · e.diff) (hnew.image id)

/-! ### What names entities -/

section Data
variable (f : EntityId → EntityId)

def Subject.renamed (s : Subject) : Subject := { s with id := f s.id }

def Line.renamed (l : Line) : Line := { l with id := f l.id }

def Round.renamed (r : Round) : Round := { r with id := f r.id }

def Relation.renamed : Relation → Relation
  | parallel l₁ l₂ => .parallel (l₁.renamed f) (l₂.renamed f)
  | perpendicular l₁ l₂ => .perpendicular (l₁.renamed f) (l₂.renamed f)
  | horizontal l => .horizontal (l.renamed f)
  | vertical l => .vertical (l.renamed f)
  | tangentLine circle l touch => .tangentLine (circle.renamed f) (l.renamed f) touch
  | tangentCircles c₁ c₂ => .tangentCircles (c₁.renamed f) (c₂.renamed f)
  | concentric c₁ c₂ => .concentric (c₁.renamed f) (c₂.renamed f)
  | coincident anchor moved => .coincident anchor (moved.map (·.renamed f))
  | collinear l₁ l₂ => .collinear (l₁.renamed f) (l₂.renamed f)
  | equalLength l₁ l₂ => .equalLength (l₁.renamed f) (l₂.renamed f)
  | equalRadius c₁ c₂ => .equalRadius (c₁.renamed f) (c₂.renamed f)
  | symmetric s₁ s₂ axis => .symmetric (s₁.renamed f) (s₂.renamed f) (axis.renamed f)
  | midpoint s host => .midpoint (s.renamed f) (host.renamed f)
  | distance target s₁ s₂ => .distance target (s₁.renamed f) (s₂.renamed f)
  | angle target l₁ l₂ => .angle target (l₁.renamed f) (l₂.renamed f)
  | radius target c => .radius target (c.renamed f)
  | diameter target c => .diameter target (c.renamed f)
  | length target l => .length target (l.renamed f)
  | fix target s => .fix target (s.renamed f)
  | pattern offset origin moved => .pattern offset origin (moved.map (·.renamed f))
  | offsetDistance target l₁ l₂ => .offsetDistance target (l₁.renamed f) (l₂.renamed f)

def Degeneracy.renamed (d : Degeneracy) : Degeneracy := { d with id := f d.id }

def SolveError.renamed : SolveError → SolveError
  | .entityNotFound id => .entityNotFound (f id)
  | .wrongEntityType id expected actual => .wrongEntityType (f id) expected actual
  | .degenerateGeometry id reason => .degenerateGeometry (f id) reason
  | e => e

def Constraint.renamed (c : Constraint) : Constraint := { c with entities := c.entities.map f }

end Data

/-! ### Look-ups -/

/-- An outcome with its error and its result replaced. -/
def carried {ε ε' α β : Type} (g : ε → ε') (h : α → β) : Except ε α → Except ε' β
  | .ok a => .ok (h a)
  | .error e => .error (g e)

theorem bind_carried {ε ε' α β γ δ : Type} {g : ε → ε'} {h : α → β} {h' : γ → δ} {k : α → Except ε γ}
    {k' : β → Except ε' δ} (hk : ∀ a, k' (h a) = carried g h' (k a)) (x : Except ε α) :
    carried g h x >>= k' = carried g h' (x >>= k) := by
  cases x with
  | error e => rfl
  | ok a => exact hk a

theorem mapM_carried {ε ε' α β γ δ : Type} {g : ε → ε'} {h : γ → δ} {i : α → β} {k : α → Except ε γ}
    {k' : β → Except ε' δ} (hk : ∀ a, k' (i a) = carried g h (k a)) (l : List α) :
    (l.map i).mapM k' = carried g (List.map h) (l.mapM k) := by
  induction l with
  | nil => rfl
  | cons a rest ih =>
    rw [List.map_cons, List.mapM_cons, List.mapM_cons, hk, ih]
    refine bind_carried (fun b => ?_) _
    refine bind_carried (fun bs => ?_) _
    rfl

namespace Constraint

variable {f : EntityId → EntityId}

theorem idAt_renamed (c : Constraint) (place : Nat) :
    (c.renamed f).idAt place = carried (SolveError.renamed f) f (c.idAt place) := by
  simp only [idAt, renamed, List.getElem?_map, List.length_map]
  cases c.entities[place]? <;> rfl

theorem asLine_renamed (s : Subject) : asLine (s.renamed f) = carried (SolveError.renamed f) (Line.renamed f) (asLine s) := by
  obtain ⟨id, e⟩ := s
  cases e <;> rfl

theorem asRound_renamed (s : Subject) : asRound (s.renamed f) = carried (SolveError.renamed f) (Round.renamed f) (asRound s) := by
  obtain ⟨id, e⟩ := s
  cases e <;> rfl

theorem demanded_renamed {α : Type} (c : Constraint) (key : ParameterKey) (value : Option α) :
    (c.renamed f).demanded key value = carried (SolveError.renamed f) (fun a => a) (c.demanded key value) := by
  cases value <;> rfl

theorem tangentPair_renamed (c : Constraint) (s₁ s₂ : Subject) :
    (c.renamed f).tangentPair (s₁.renamed f) (s₂.renamed f) =
      carried (SolveError.renamed f) (Relation.renamed f) (c.tangentPair s₁ s₂) := by
  obtain ⟨id₁, e₁⟩ := s₁
  obtain ⟨id₂, e₂⟩ := s₂
  cases e₁ <;> cases e₂ <;> rfl

section Snapshots
variable {s t : Snapshot} (h : s.Renamed f t) (c : Constraint)
include h

theorem subject_renamed (id : EntityId) :
    subject t (f id) = carried (SolveError.renamed f) (Subject.renamed f) (subject s id) := by
  rw [subject, subject, h.image]
  cases s.get? id <;> rfl

theorem subjectAt_renamed (place : Nat) :
    (c.renamed f).subjectAt t place = carried (SolveError.renamed f) (Subject.renamed f) (c.subjectAt s place) := by
  rw [subjectAt, subjectAt, idAt_renamed]
  exact bind_carried (subject_renamed h) _

theorem lineAt_renamed (place : Nat) :
    (c.renamed f).lineAt t place = carried (SolveError.renamed f) (Line.renamed f) (c.lineAt s place) := by
  rw [lineAt, lineAt, subjectAt_renamed h]
  exact bind_carried asLine_renamed _

theorem roundAt_renamed (place : Nat) :
    (c.renamed f).roundAt t place = carried (SolveError.renamed f) (Round.renamed f) (c.roundAt s place) := by
  rw [roundAt, roundAt, subjectAt_renamed h]
  exact bind_carried asRound_renamed _

theorem others_renamed :
    (c.renamed f).others t = carried (SolveError.renamed f) (List.map (Subject.renamed f)) (c.others s) := by
  rw [others, others, ← mapM_carried (subject_renamed h), List.map_drop]
  rfl

/-- A renamed constraint states the renamed relation, or fails with the renamed error. -/
theorem relation?_renamed :
    (c.renamed f).relation? t = carried (SolveError.renamed f) (Relation.renamed f) (c.relation? s) := by
  have hkind : (c.renamed f).kind = c.kind := rfl
  have hparameters : (c.renamed f).parameters = c.parameters := rfl
  unfold relation?
  rw [hkind]
  cases c.kind <;>
    simp only [numberOf, hparameters, subjectAt_renamed h, lineAt_renamed h, roundAt_renamed h, others_renamed h,
      demanded_renamed]
  case tangent =>
    refine bind_carried (fun s₁ => ?_) _
    refine bind_carried (fun s₂ => ?_) _
    exact tangentPair_renamed c s₁ s₂
  case horizontal | vertical =>
    refine bind_carried (fun l => ?_) _
    rfl
  case symmetric | distance | angle | offsetDistance | pattern =>
    refine bind_carried (fun a => ?_) _
    refine bind_carried (fun b => ?_) _
    refine bind_carried (fun d => ?_) _
    rfl
  all_goals
    refine bind_carried (fun a => ?_) _
    refine bind_carried (fun b => ?_) _
    rfl

end Snapshots

end Constraint

/-! ### Measuring and correcting -/

section Geometry
variable {f : EntityId → EntityId}

theorem Line.angle_renamed (l : Line) :
    (l.renamed f).angle = carried (Degeneracy.renamed f) (fun a => a) l.angle := by
  show (if l.segment.isDegenerate then .error (Degeneracy.mk (f l.id) .line) else .ok l.segment.angle) =
    carried _ _ (if l.segment.isDegenerate then .error (Degeneracy.mk l.id .line) else .ok l.segment.angle)
  split <;> rfl

theorem Line.normal_renamed (l : Line) :
    (l.renamed f).normal = carried (Degeneracy.renamed f) (fun n => n) l.normal := by
  obtain ⟨id, segment⟩ := l
  simp only [normal, renamed]
  cases segment.normal? <;> rfl

theorem Line.signedDistance_renamed (l : Line) (p : Point) :
    (l.renamed f).signedDistance p = carried (Degeneracy.renamed f) (fun d => d) (l.signedDistance p) := by
  obtain ⟨id, segment⟩ := l
  simp only [signedDistance, renamed]
  cases segment.signedDistance? p <;> rfl

theorem Line.mirror_renamed (l : Line) (p : Point) :
    (l.renamed f).mirror p = carried (Degeneracy.renamed f) (fun q => q) (l.mirror p) := by
  obtain ⟨id, segment⟩ := l
  simp only [mirror, renamed]
  cases segment.mirror? p <;> rfl

namespace Relation

theorem tangentOffsets_renamed (circle : Round) (l : Line) (touch : Option Point) :
    tangentOffsets (circle.renamed f) (l.renamed f) touch =
      carried (Degeneracy.renamed f) (fun o => o) (tangentOffsets circle l touch) := by
  have hcenter : (circle.renamed f).center = circle.center := rfl
  unfold tangentOffsets
  rw [hcenter, Line.signedDistance_renamed]
  refine bind_carried (fun current => ?_) _
  cases touch with
  | none => rfl
  | some p =>
    simp only [Line.normal_renamed]
    cases l.normal <;> rfl

/-- The measure does not depend on names. -/
theorem residual_renamed (r : Relation) :
    (r.renamed f).residual = carried (Degeneracy.renamed f) (fun x => x) r.residual := by
  cases r <;>
    simp only [renamed, residual, Line.angle_renamed, Line.signedDistance_renamed, Line.mirror_renamed,
      tangentOffsets_renamed]
  case parallel | perpendicular | collinear | offsetDistance | angle =>
    refine bind_carried (fun a => ?_) _
    refine bind_carried (fun b => ?_) _
    rfl
  case tangentLine | symmetric =>
    refine bind_carried (fun a => ?_) _
    rfl
  case coincident =>
    rw [List.map_map]
    rfl
  case pattern =>
    rw [List.zipIdx_map, List.map_map]
    rfl
  all_goals rfl

/-- The new values do not depend on names, and go to the renamed entities. -/
theorem correction_renamed (settings : SolverSettings) (r : Relation) :
    (r.renamed f).correction settings =
      carried (Degeneracy.renamed f) (List.map (Subject.renamed f)) (r.correction settings) := by
  cases r <;>
    simp only [renamed, correction, Line.angle_renamed, Line.normal_renamed, Line.mirror_renamed,
      tangentOffsets_renamed]
  case parallel | perpendicular | tangentLine =>
    refine bind_carried (fun a => ?_) _
    refine bind_carried (fun b => ?_) _
    rfl
  case collinear =>
    refine bind_carried (fun a => ?_) _
    refine bind_carried (fun b => ?_) _
    refine bind_carried (fun normal => ?_) _
    rw [Line.signedDistance_renamed]
    refine bind_carried (fun d => ?_) _
    rfl
  case offsetDistance =>
    refine bind_carried (fun a => ?_) _
    refine bind_carried (fun b => ?_) _
    rw [Line.signedDistance_renamed]
    refine bind_carried (fun d => ?_) _
    refine bind_carried (fun normal => ?_) _
    rfl
  case angle | symmetric =>
    refine bind_carried (fun a => ?_) _
    rfl
  case distance =>
    cases settings.distanceMode <;> rfl
  case coincident =>
    show Except.ok _ = Except.ok _
    rw [List.map_map, List.map_map]
    rfl
  case pattern =>
    show Except.ok _ = Except.ok _
    rw [List.zipIdx_map, List.map_map, List.map_map]
    rfl
  all_goals rfl

end Relation

end Geometry

namespace Constraint

variable {f : EntityId → EntityId} {s t : Snapshot} (h : s.Renamed f t) (c : Constraint)
include h

theorem residual_renamed :
    (c.renamed f).residual t = carried (SolveError.renamed f) (fun x => x) (c.residual s) := by
  rw [residual, residual, relation?_renamed h]
  refine bind_carried (fun r => ?_) _
  rw [r.residual_renamed]
  cases r.residual <;> rfl

theorem correction_renamed (settings : SolverSettings) :
    (c.renamed f).correction settings t =
      carried (SolveError.renamed f) (List.map (Subject.renamed f)) (c.correction settings s) := by
  rw [correction, correction, relation?_renamed h]
  refine bind_carried (fun r => ?_) _
  rw [r.correction_renamed]
  cases r.correction settings <;> rfl

/-- **A corrective step does not know what the entities are called.** -/
theorem step_renamed (hf : Function.Injective f) (settings : SolverSettings) :
    (∃ e, c.step settings s = .error e ∧ (c.renamed f).step settings t = .error (e.renamed f)) ∨
    ∃ s' t', c.step settings s = .ok s' ∧ (c.renamed f).step settings t = .ok t' ∧ s'.Renamed f t' := by
  rw [step, step, correction_renamed h]
  cases c.correction settings s with
  | error e => exact .inl ⟨e, rfl, rfl⟩
  | ok changes =>
    refine .inr ⟨_, _, rfl, rfl, ?_⟩
    have hwritten := h.insertAll hf (changes.map fun x => (x.id, x.entity))
    rwa [List.map_map] at hwritten ⊢

end Constraint

end Drafting
