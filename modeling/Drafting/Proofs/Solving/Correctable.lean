import Drafting.Proofs.Solving.Pass

/-! What can be measured can be corrected.

Measuring and correcting take headings, normals and distances of lines, and all of
these are there for a line that is long enough, and for no other. A correction asks
for little that the residual has not asked for before. The one thing is the heading
of the second line where two lines are to lie on one line or at a distance: there
the residual measures from the first line only. So where a residual is measured,
the correction exists, unless that second line is too short
(`Constraint.corrects`).

A correction that looks up its entities by itself (`Constraint.correctionAlone`) asks
for fewer of them, and in an order of its own. After a residual there is no
difference. -/
namespace Drafting

/-! ### Lines that have a heading -/

namespace Line

variable {l : Line} (p : Point)

theorem angle_eq_ok {a : Float} : l.angle = .ok a ↔ l.segment.isDegenerate = false ∧ l.segment.angle = a := by
  unfold angle
  cases l.segment.isDegenerate <;> simp

theorem angle_of_short (h : l.segment.isDegenerate = true) : l.angle = .error ⟨l.id, .line⟩ := if_pos h

/-- The length of a segment and the norm of its vector are one number. -/
theorem not_short_iff : l.segment.isDegenerate = false ↔ ¬ l.segment.vec.norm < epsilon := decide_eq_false_iff_not

theorem exists_normal (h : l.segment.isDegenerate = false) : ∃ v, l.normal = .ok v := by
  rw [normal, Segment.normal?, if_neg (not_short_iff.mp h)]
  exact ⟨_, rfl⟩

theorem exists_signedDistance (h : l.segment.isDegenerate = false) : ∃ d, l.signedDistance p = .ok d := by
  rw [signedDistance, Segment.signedDistance?, if_neg (not_short_iff.mp h)]
  exact ⟨_, rfl⟩

theorem long_of_signedDistance {d : Float} (h : l.signedDistance p = .ok d) : l.segment.isDegenerate = false := by
  refine not_short_iff.mpr fun hshort => ?_
  rw [signedDistance, Segment.signedDistance?, if_pos hshort] at h
  cases h

/-- A way to find the normal of a line: where the line has one, it is that one. -/
def FindsNormals (normal : Line → Except Degeneracy Vec) : Prop := ∀ l v, l.normal = .ok v → normal l = .ok v

theorem FindsNormals.eq_normal {normal : Line → Except Degeneracy Vec} (h : FindsNormals normal)
    (hlong : l.segment.isDegenerate = false) : normal l = l.normal := by
  obtain ⟨v, hv⟩ := exists_normal hlong
  rw [hv, h l v hv]

end Line

namespace Relation

/-! ### Normals -/

/-- The offsets of a tangent line, with the normal found in another way. -/
def tangentOffsetsBy (normal : Line → Except Degeneracy Vec) (circle : Round) (line : Line) (touch : Option Point) :
    Except Degeneracy (Float × Float) := do
  let current ← line.signedDistance circle.center
  let side ← match touch with
    | some p => do pure ((p - circle.center).dot (← normal line))
    | none => pure 0.0
  let wanted :=
    if side.abs < epsilon then onSideOf current circle.radius
    else if 0.0 < side then -circle.radius
    else circle.radius
  return (current, wanted)

/-- The correction, with every normal found in another way. Three kinds take one. -/
def correctionBy (normal : Line → Except Degeneracy Vec) (settings : SolverSettings) :
    Relation → Except Degeneracy (List Subject)
  | tangentLine circle l touch => do
    let (current, wanted) ← tangentOffsetsBy normal circle l touch
    return [⟨l.id, .ofSegment (l.segment.translated ((← normal l) * (current - wanted)))⟩]
  | collinear l₁ l₂ => do
    let turned := l₂.segment.rotated (Angle.nearestAlong (← l₁.angle) (← l₂.angle))
    return [⟨l₂.id, .ofSegment (turned.translated ((← normal l₁) * -(← l₁.signedDistance turned.start)))⟩]
  | offsetDistance target l₁ l₂ => do
    let turned := l₂.segment.rotated (Angle.nearestAlong (← l₁.angle) (← l₂.angle))
    let d ← l₁.signedDistance turned.start
    return [⟨l₂.id, .ofSegment (turned.translated ((← normal l₁) * ((onSideOf d target - d) * settings.part .offsetDistance)))⟩]
  | r => r.correction settings

theorem correctionBy_normal (settings : SolverSettings) (r : Relation) :
    r.correctionBy Line.normal settings = r.correction settings := by
  cases r <;> rfl

theorem tangentOffsetsBy_normal (circle : Round) (line : Line) (touch : Option Point) :
    tangentOffsetsBy Line.normal circle line touch = tangentOffsets circle line touch :=
  rfl

theorem tangentOffsetsBy_eq {normal : Line → Except Degeneracy Vec} (h : Line.FindsNormals normal) (circle : Round)
    (line : Line) (touch : Option Point) :
    tangentOffsetsBy normal circle line touch = tangentOffsets circle line touch := by
  rw [← tangentOffsetsBy_normal]
  unfold tangentOffsetsBy
  cases hd : line.signedDistance circle.center with
  | error e => rfl
  | ok d => rw [h.eq_normal (Line.long_of_signedDistance _ hd)]

theorem long_of_tangentOffsets {circle : Round} {line : Line} {touch : Option Point} {offsets : Float × Float}
    (h : tangentOffsets circle line touch = .ok offsets) : line.segment.isDegenerate = false := by
  obtain ⟨d, hd, _⟩ := bind_eq_ok.mp h
  exact Line.long_of_signedDistance _ hd

/-- **What a missing normal would answer makes no difference**: before a correction takes the normal of a line,
it has taken a heading or a distance of that line. -/
theorem correctionBy_eq {normal : Line → Except Degeneracy Vec} (h : Line.FindsNormals normal)
    (settings : SolverSettings) (r : Relation) : r.correctionBy normal settings = r.correction settings := by
  rw [← correctionBy_normal]
  cases r with
  | tangentLine circle l touch =>
    simp only [correctionBy, tangentOffsetsBy_eq h, tangentOffsetsBy_normal]
    cases hoffsets : tangentOffsets circle l touch with
    | error e => rfl
    | ok offsets => rw [h.eq_normal (long_of_tangentOffsets hoffsets)]
  | collinear l₁ l₂ | offsetDistance _ l₁ l₂ =>
    simp only [correctionBy]
    cases hangle : l₁.angle with
    | error e => rfl
    | ok a => rw [h.eq_normal (Line.angle_eq_ok.mp hangle).1]
  | _ => rfl

/-! ### After a residual -/

/-- The line whose heading a correction takes and the residual does not. -/
def turned? : Relation → Option Line
  | collinear _ l | offsetDistance _ _ l => some l
  | _ => none

variable {r : Relation} {x : Float} {l : Line}

/-- What can be measured can be corrected, if the line that is turned has a heading. -/
theorem exists_correction (settings : SolverSettings) (h : r.residual = .ok x)
    (hlong : ∀ l, r.turned? = some l → l.segment.isDegenerate = false) :
    ∃ changes, r.correction settings = .ok changes := by
  cases r <;> simp only [residual, bind_eq_ok] at h
  case parallel l₁ l₂ | perpendicular l₁ l₂ =>
    obtain ⟨a₁, h₁, a₂, h₂, _⟩ := h
    simp only [correction, h₁, h₂]
    exact ⟨_, rfl⟩
  case tangentLine circle l touch =>
    obtain ⟨offsets, hoffsets, _⟩ := h
    obtain ⟨v, hv⟩ := Line.exists_normal (long_of_tangentOffsets hoffsets)
    simp only [correction, hoffsets, hv]
    exact ⟨_, rfl⟩
  case collinear l₁ l₂ | offsetDistance _ l₁ l₂ =>
    obtain ⟨_, hd, _⟩ := h
    have h₁ := Line.long_of_signedDistance _ hd
    let turned := l₂.segment.rotated (Angle.nearestAlong l₁.segment.angle l₂.segment.angle)
    obtain ⟨v, hv⟩ := Line.exists_normal h₁
    obtain ⟨d, hd⟩ := Line.exists_signedDistance turned.start h₁
    simp only [correction, Line.angle_eq_ok.mpr ⟨h₁, rfl⟩, Line.angle_eq_ok.mpr ⟨hlong l₂ rfl, rfl⟩, hv, bind, Except.bind]
    rw [hd]
    exact ⟨_, rfl⟩
  case symmetric s₁ s₂ axis =>
    obtain ⟨q, hq, _⟩ := h
    simp only [correction, hq]
    exact ⟨_, rfl⟩
  case angle target l₁ l₂ =>
    obtain ⟨a₂, _, a₁, h₁, _⟩ := h
    simp only [correction, h₁]
    exact ⟨_, rfl⟩
  case distance target s₁ s₂ =>
    simp only [correction]
    cases settings.distanceMode <;> exact ⟨_, rfl⟩
  all_goals exact ⟨_, rfl⟩

/-- Where the line that is turned has no heading, that is the error. -/
theorem correction_of_short (settings : SolverSettings) (h : r.residual = .ok x) (hl : r.turned? = some l)
    (hshort : l.segment.isDegenerate = true) : r.correction settings = .error ⟨l.id, .line⟩ := by
  cases r <;> simp only [turned?, Option.some.injEq, reduceCtorEq] at hl
  case collinear l₁ l₂ | offsetDistance _ l₁ l₂ =>
    subst hl
    obtain ⟨_, hd, _⟩ := bind_eq_ok.mp h
    have h₁ := Line.long_of_signedDistance _ hd
    simp only [correction, Line.angle_eq_ok.mpr ⟨h₁, rfl⟩, Line.angle_of_short hshort]
    rfl

end Relation

namespace Constraint

variable {c : Constraint} {settings : SolverSettings} {snapshot : Snapshot}

/-! ### A correction on its own -/

theorem residual_eq_ok {x : Float} :
    c.residual snapshot = .ok x ↔ ∃ r, c.relation? snapshot = .ok r ∧ r.residual = .ok x := by
  simp only [residual, bind_eq_ok, mapError_eq_ok]

/-- After a residual it makes no difference who looks up the entities. -/
theorem correctionAlone_eq {x : Float} (settings : SolverSettings) (h : c.residual snapshot = .ok x) :
    c.correctionAlone settings snapshot = c.correction settings snapshot := by
  obtain ⟨r, hr, _⟩ := residual_eq_ok.mp h
  unfold correctionAlone correction
  rw [hr]
  unfold relation? at hr
  cases hk : c.kind <;> simp only [hk, bind_eq_ok, pure_eq_ok] at hr ⊢
  case concentric | equalRadius =>
    obtain ⟨fixed, hfixed, moved, hmoved, rfl⟩ := hr
    obtain ⟨s, hs, hround⟩ := bind_eq_ok.mp hmoved
    rw [hfixed, hs, ← subject_of_asRound hround]
    rfl
  case symmetric =>
    obtain ⟨s₁, h₁, s₂, h₂, axis, haxis, rfl⟩ := hr
    rw [h₁, h₂, haxis]
    simp only [Relation.correction, bind, Except.bind]
    cases axis.mirror s₁.reference <;> rfl
  case midpoint =>
    obtain ⟨s, hs, host, hhost, rfl⟩ := hr
    rw [hs, hhost]
    rfl
  case distance =>
    obtain ⟨target, htarget, s₁, h₁, s₂, h₂, rfl⟩ := hr
    rw [htarget, h₁, h₂, idAt_eq_ok.mpr (subjectAt_eq_ok.mp h₁).1, idAt_eq_ok.mpr (subjectAt_eq_ok.mp h₂).1]
    rfl

/-! ### What a correction answers with -/

/-- The subject is an entity of the constraint that the snapshot has. -/
def Owns (c : Constraint) (snapshot : Snapshot) (s : Subject) : Prop := s.id ∈ c.entities ∧ s.id ∈ snapshot

theorem Finds.owns {s s' : Subject} (h : c.Finds snapshot s) (hid : s'.id = s.id) : c.Owns snapshot s' := by
  rw [Owns, hid]
  exact ⟨h.1, Table.mem_iff.mpr (by rw [h.2]; rfl)⟩

/-- What a relation makes of entities of the constraint are entities of the constraint. -/
theorem owns_of_reworks {r : Relation} {changes : List Subject} (hmovers : ∀ s ∈ r.movers settings, c.Finds snapshot s)
    (h : r.correction settings = .ok changes) : ∀ s ∈ changes, c.Owns snapshot s := by
  intro s hs
  obtain ⟨mover, hmover, hid, _⟩ := exists_source (Relation.correction_reworks settings h) hs
  exact (hmovers mover hmover).owns hid

theorem owns_of_correction {changes : List Subject} (h : c.correction settings snapshot = .ok changes) :
    ∀ s ∈ changes, c.Owns snapshot s := by
  obtain ⟨r, hr, hchanges⟩ := correction_eq_ok.mp h
  exact owns_of_reworks (finds_movers settings hr) hchanges

theorem owns_of_correctionAlone {changes : List Subject} (h : c.correctionAlone settings snapshot = .ok changes) :
    ∀ s ∈ changes, c.Owns snapshot s := by
  unfold correctionAlone at h
  split at h
  case h_6 => exact owns_of_correction h
  all_goals simp only [bind_eq_ok, pure_eq_ok, mapError_eq_ok] at h
  case h_1 | h_2 | h_4 =>
    obtain ⟨_, _, moved, hmoved, rfl⟩ := h
    exact List.forall_mem_singleton.mpr ((finds_subjectAt hmoved).owns rfl)
  case h_3 =>
    obtain ⟨_, _, _, _, _, _, moved, hmoved, rfl⟩ := h
    exact List.forall_mem_singleton.mpr ((finds_subjectAt hmoved).owns rfl)
  case h_5 =>
    obtain ⟨target, _, _, _, _, _, s₁, h₁, s₂, h₂, hchanges⟩ := h
    refine owns_of_reworks (fun s hs => ?_) hchanges
    have hpair : s = s₁ ∨ s = s₂ := by
      cases hmode : settings.distanceMode <;> simp [Relation.movers, hmode] at hs <;> tauto
    rcases hpair with rfl | rfl
    · exact finds_subjectAt h₁
    · exact finds_subjectAt h₂

theorem ids_others {subjects : List Subject} (h : c.others snapshot = .ok subjects) :
    subjects.map (·.id) = c.entities.drop 1 := by
  unfold others at h
  generalize c.entities.drop 1 = ids at h ⊢
  induction ids generalizing subjects with
  | nil =>
    rw [List.mapM_nil, pure_eq_ok] at h
    rw [← h, List.map_nil]
  | cons id rest ih =>
    simp only [List.mapM_cons, bind_eq_ok, pure_eq_ok] at h
    obtain ⟨first, hfirst, others, hothers, rfl⟩ := h
    rw [List.map_cons, (subject_eq_ok.mp hfirst).1, ih hothers]

/-- Where an entity is found at a place, the row of entities reaches that far. -/
theorem pos_of_subjectAt {place : Nat} {s : Subject} (h : c.subjectAt snapshot place = .ok s) :
    place + 1 ≤ c.entities.length :=
  (List.getElem?_eq_some_iff.mp (subjectAt_eq_ok.mp h).1).1

/-- Kinds that move all entities but the first answer with one change for each of these. -/
theorem length_correction {changes : List Subject} (hkind : c.kind = .coincident ∨ c.kind = .pattern)
    (h : c.correction settings snapshot = .ok changes) : changes.length + 1 = c.entities.length := by
  obtain ⟨r, hr, hchanges⟩ := correction_eq_ok.mp h
  have hlength (subjects : List Subject) (s : Subject) (hs : c.subjectAt snapshot 0 = .ok s)
      (hothers : c.others snapshot = .ok subjects) : subjects.length + 1 = c.entities.length := by
    have hids := congrArg List.length (ids_others hothers)
    have hpos := pos_of_subjectAt hs
    rw [List.length_map, List.length_drop] at hids
    omega
  unfold relation? at hr
  rcases hkind with hk | hk <;> simp only [hk, bind_eq_ok, pure_eq_ok] at hr
  · obtain ⟨s, hs, moved, hmoved, rfl⟩ := hr
    rw [← hlength moved s hs hmoved, ← (Relation.correction_reworks settings hchanges).length_eq]
    rfl
  · obtain ⟨_, _, s, hs, moved, hmoved, rfl⟩ := hr
    rw [← hlength moved s hs hmoved, ← (Relation.correction_reworks settings hchanges).length_eq]
    rfl

/-! ### The one exception -/

/-- The constraint puts two lines on one line or at a distance, and the second one is too short to have a
heading. -/
structure LosesHeading (c : Constraint) (snapshot : Snapshot) (id : EntityId) : Prop where
  kind : c.kind = .collinear ∨ c.kind = .offsetDistance
  second : c.entities[1]? = some id
  short : ∃ start stop, snapshot.get? id = some (.line start stop) ∧ start.distance stop < epsilon

theorem kind_of_turned {r : Relation} {l : Line} (hr : c.relation? snapshot = .ok r) (hl : r.turned? = some l) :
    c.kind = .collinear ∨ c.kind = .offsetDistance := by
  rw [← kind_relation? hr]
  cases r <;> cases hl
  · exact .inl rfl
  · exact .inr rfl

theorem turned_of_kind {r : Relation} (hr : c.relation? snapshot = .ok r)
    (hkind : c.kind = .collinear ∨ c.kind = .offsetDistance) :
    ∃ l, r.turned? = some l ∧ c.entities[1]? = some l.id ∧ snapshot.get? l.id = some (.ofSegment l.segment) := by
  unfold relation? at hr
  rcases hkind with hk | hk <;> simp only [hk, bind_eq_ok, pure_eq_ok] at hr
  · obtain ⟨_, _, l, hl, rfl⟩ := hr
    exact ⟨l, rfl, place_of_lineAt hl, (finds_lineAt hl).2⟩
  · obtain ⟨_, _, _, _, l, hl, rfl⟩ := hr
    exact ⟨l, rfl, place_of_lineAt hl, (finds_lineAt hl).2⟩

/-- Where a relation is stated, the exception is about the line that it turns. -/
theorem losesHeading_iff {r : Relation} (hr : c.relation? snapshot = .ok r) (id : EntityId) :
    c.LosesHeading snapshot id ↔ ∃ l, r.turned? = some l ∧ l.id = id ∧ l.segment.isDegenerate = true := by
  constructor
  · intro ⟨hkind, hsecond, start, stop, hget, hshort⟩
    obtain ⟨l, hl, hplace, hfound⟩ := turned_of_kind hr hkind
    obtain rfl : l.id = id := Option.some.inj (hplace.symm.trans hsecond)
    obtain ⟨rfl, rfl⟩ := Entity.line.inj (Option.some.inj (hfound.symm.trans hget))
    exact ⟨l, hl, rfl, decide_eq_true hshort⟩
  · intro ⟨l, hl, hid, hshort⟩
    have hkind := kind_of_turned hr hl
    obtain ⟨l', hl', hplace, hfound⟩ := turned_of_kind hr hkind
    obtain rfl : l' = l := Option.some.inj (hl'.symm.trans hl)
    subst hid
    exact ⟨hkind, hplace, _, _, hfound, of_decide_eq_true hshort⟩

/-- **What can be measured can be corrected**, with one exception. Where the residual of a constraint, admitted or
not, is measured, its correction exists, whoever looks up the entities; unless the second of two lines that are to
lie on one line or at a distance is too short, and then that is the error. A correction gives values to entities of
the constraint that the snapshot has, and to no others. It never misses the normal of a line. And when a row of
entities is moved to the first of them, there is a first one. -/
theorem corrects (settings : SolverSettings) (c : Constraint) (snapshot : Snapshot) :
    (∀ x, c.residual snapshot = .ok x →
      c.correctionAlone settings snapshot = c.correction settings snapshot ∧
      (∀ id, c.LosesHeading snapshot id →
        c.correctionAlone settings snapshot = .error (.degenerateGeometry id "line has zero length")) ∧
      ((∀ id, ¬ c.LosesHeading snapshot id) → ∃ changes, c.correctionAlone settings snapshot = .ok changes)) ∧
    (∀ changes, c.correctionAlone settings snapshot = .ok changes → ∀ s ∈ changes, c.Owns snapshot s) ∧
    (∀ normal, Line.FindsNormals normal → ∀ r : Relation, r.correctionBy normal settings = r.correction settings) ∧
    (c.kind = .coincident ∨ c.kind = .pattern →
      (∀ anchor, c.subjectAt snapshot 0 = .ok anchor → 1 ≤ c.entities.length) ∧
      ∀ changes, c.correctionAlone settings snapshot = .ok changes → changes.length + 1 = c.entities.length) := by
  refine ⟨fun x hx => ?_, fun _ => owns_of_correctionAlone, fun _ hnormal => Relation.correctionBy_eq hnormal settings,
    fun hkind => ⟨fun _ => pos_of_subjectAt, fun changes hchanges => ?_⟩⟩
  · have halone := correctionAlone_eq settings hx
    obtain ⟨r, hr, hmeasured⟩ := residual_eq_ok.mp hx
    have hcorrection : c.correction settings snapshot = (r.correction settings).mapError Degeneracy.error := by
      rw [correction, hr]
      rfl
    refine ⟨halone, fun id hlost => ?_, fun hkept => ?_⟩
    · obtain ⟨l, hl, rfl, hshort⟩ := (losesHeading_iff hr id).mp hlost
      rw [halone, hcorrection, Relation.correction_of_short settings hmeasured hl hshort]
      rfl
    · obtain ⟨changes, hchanges⟩ := Relation.exists_correction settings hmeasured fun l hl =>
        Bool.eq_false_iff.mpr fun hshort => hkept l.id ((losesHeading_iff hr l.id).mpr ⟨l, hl, rfl, hshort⟩)
      exact ⟨changes, halone.trans (correction_eq_ok.mpr ⟨r, hr, hchanges⟩)⟩
  · have hsame : c.correctionAlone settings snapshot = c.correction settings snapshot := by
      rcases hkind with hk | hk <;> simp only [correctionAlone, hk]
    exact length_correction hkind (hsame.symm.trans hchanges)

/-- A line, and a second one without length beside it. That they do not lie on one line is measured, but the second
cannot be turned. Where no heading is asked for, it is drawn anew. -/
theorem corrects_short :
    let lines : Snapshot := .ofList
      [(⟨⟨1⟩⟩, .line ⟨0.0, 0.0⟩ ⟨10.0, 0.0⟩), (⟨⟨2⟩⟩, .line ⟨3.0, 2.0⟩ ⟨3.0, 2.0⟩)]
    let aligned : Constraint := .bare 1 .collinear [⟨⟨1⟩⟩, ⟨⟨2⟩⟩]
    let alike : Constraint := .bare 2 .equalLength [⟨⟨1⟩⟩, ⟨⟨2⟩⟩]
    aligned.residual lines = .ok 2.0 ∧
      aligned.correctionAlone {} lines = .error (.degenerateGeometry ⟨⟨2⟩⟩ "line has zero length") ∧
      alike.residual lines = .ok 10.0 ∧ ∃ changes, alike.correctionAlone {} lines = .ok changes := by
  intro lines aligned alike
  have haligned : aligned.residual lines = .ok 2.0 := by decide +kernel
  have halike : alike.residual lines = .ok 10.0 := by decide +kernel
  refine ⟨haligned, ((corrects {} aligned lines).1 _ haligned).2.1 ⟨⟨2⟩⟩ ⟨.inl rfl, rfl, ⟨3.0, 2.0⟩, ⟨3.0, 2.0⟩, ?_, ?_⟩,
    halike, ((corrects {} alike lines).1 _ halike).2.2 fun _ hlost => ?_⟩
  · decide +kernel
  · decide +kernel
  · rcases hlost.kind with hkind | hkind <;> cases hkind

end Constraint

end Drafting
