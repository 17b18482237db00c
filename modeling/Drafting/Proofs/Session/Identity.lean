import Drafting.Proofs.Session.Change

/-! Constraints keep their identity.

The numbers of a series are used once each and in order, and a constraint is given
its identifier when it comes in. So as long as the hash function does not give two
of these numbers one identifier, an identifier belongs to one constraint for ever:
it is never stored twice, and it is not given out again when its constraint has been
removed (`Session.fresh`). With that, looking a constraint up by its identifier finds
the one that is meant, and each operation leaves the others alone
(`Session.orderly_perform`). -/
namespace Drafting

/-- What stays the same about a constraint from its creation to its removal. -/
structure Constraint.SameAs (c c' : Constraint) : Prop where
  id : c'.id = c.id
  kind : c'.kind = c.kind
  entities : c'.entities = c.entities
  parameters : c'.parameters = c.parameters
  priority : c'.priority = c.priority
  created : c'.metadata.created = c.metadata.created
  description : c'.metadata.description = c.metadata.description

theorem Constraint.SameAs.refl (c : Constraint) : c.SameAs c := ⟨rfl, rfl, rfl, rfl, rfl, rfl, rfl⟩

theorem Constraint.SameAs.trans {a b c : Constraint} (h : a.SameAs b) (h' : b.SameAs c) : a.SameAs c :=
  ⟨h'.id.trans h.id, h'.kind.trans h.kind, h'.entities.trans h.entities, h'.parameters.trans h.parameters,
    h'.priority.trans h.priority, h'.created.trans h.created, h'.description.trans h.description⟩

namespace Operation

/-- Whether the operation is to remove the constraint with this identifier. -/
def removes : Operation → ConstraintId → Bool
  | .remove id, id' => id' == id
  | _, _ => false

/-- The operation asks for new constraints. -/
inductive Creates : Operation → Prop where
  | create {request : Request} : Creates (.create request)
  | connectPairs {ids : List EntityId} : Creates (.connectPairs ids)

end Operation

/-- Where identifiers differ, the first match is the only one. -/
theorem eraseP_eq_filter {l : List Constraint} (h : (l.map (·.id)).Nodup) (id : ConstraintId) :
    l.eraseP (·.id == id) = l.filter (·.id != id) := by
  induction l with
  | nil => rfl
  | cons c rest ih =>
    obtain ⟨hc, hrest⟩ := List.nodup_cons.mp h
    by_cases hid : c.id = id
    · have hothers : ∀ d ∈ rest, d.id ≠ id := fun d hd heq => hc (List.mem_map.mpr ⟨d, hd, heq.trans hid.symm⟩)
      rw [List.eraseP_cons_of_pos (by simpa using hid), List.filter_cons_of_neg (by simpa using hid)]
      exact (List.filter_eq_self.mpr (by simpa using hothers)).symm
    · rw [List.eraseP_cons_of_neg (by simpa using hid), List.filter_cons_of_pos (by simpa using hid), ih hrest]

/-- Constraints with different identifiers are told apart by them. -/
theorem eq_of_id_eq {l : List Constraint} (h : (l.map (·.id)).Nodup) {c d : Constraint} (hc : c ∈ l) (hd : d ∈ l)
    (hid : c.id = d.id) : c = d := List.inj_on_of_nodup_map h hc hd hid

namespace Session

variable {now : Timestamp} {s : Session} {operation : Operation}

theorem Revises.sameAs {c c' : Constraint} (h : Revises now s operation c c') : c.SameAs c' := by
  cases h with
  | untouched => exact .refl c
  | toggled => exact ⟨rfl, rfl, rfl, rfl, rfl, rfl, rfl⟩
  | overturned _ => exact ⟨rfl, rfl, rfl, rfl, rfl, rfl, rfl⟩

/-! ### One operation -/

/-- What an operation does to constraints that have an identity. -/
structure Orderly (s : Session) (operation : Operation) (o : Outcome Answer) : Prop where
  /-- One may go; the others stay in order, and new ones come in behind them. -/
  row : o.session.constraints.map (·.id) = (s.constraints.map (·.id)).filter (!operation.removes ·) ++ o.answer.issued
  active : ∀ c ∈ s.constraints, ∀ c' ∈ o.session.constraints, c'.id = c.id → c'.active ≠ c.active →
    ∃ active, operation = .toggle c.id active
  satisfied : ∀ c ∈ s.constraints, ∀ c' ∈ o.session.constraints, c'.id = c.id → c'.satisfied ≠ c.satisfied →
    operation = .solve ∧ c.active = true
  /-- Only the named constraint goes. -/
  removed : ∀ id, operation = .remove id → o.session = { s with constraints := s.constraints.filter (·.id != id) }
  /-- A name that nothing has does nothing. -/
  unknown : ∀ id, (operation = .remove id ∨ ∃ active, operation = .toggle id active) →
    id ∉ s.constraints.map (·.id) → o.answer = .found false ∧ o.session = s
  /-- Where nothing is created, nothing else happens either. -/
  refused : operation.Creates → o.answer.issued = [] → o.session = s

theorem ids_spared (h : (s.constraints.map (·.id)).Nodup) :
    (operation.spared s.constraints).map (·.id) = (s.constraints.map (·.id)).filter (!operation.removes ·) := by
  cases operation with
  | remove id =>
    rw [Operation.spared, eraseP_eq_filter h, List.filter_map]
    rfl
  | _ => exact (List.filter_eq_self.mpr fun _ _ => rfl).symm

/-- While identifiers differ, what has the identifier of a constraint is that constraint, as revised. -/
theorem Changes.revises {o : Outcome Answer} (h : Changes now s operation o)
    (hfresh : (s.constraints.map (·.id) ++ o.answer.issued).Nodup) {c c' : Constraint} (hc : c ∈ s.constraints)
    (hc' : c' ∈ o.session.constraints) (hid : c'.id = c.id) : Revises now s operation c c' := by
  obtain ⟨hdistinct, _, hnew⟩ := List.nodup_append.mp hfresh
  rcases h.source hc' with ⟨d, hd, hrevised⟩ | ⟨hissued, _⟩
  · rwa [eq_of_id_eq hdistinct hc hd (hid.symm.trans hrevised.id_eq)]
  · exact absurd hid.symm (hnew _ (List.mem_map_of_mem hc) _ hissued)

theorem constraint?_eq_none {id : ConstraintId} (h : id ∉ s.constraints.map (·.id)) : s.constraint? id = none := by
  refine List.find?_eq_none.mpr fun c hc heq => h (List.mem_map.mpr ⟨c, hc, ?_⟩)
  simpa using heq

theorem session_remove (h : (s.constraints.map (·.id)).Nodup) (id : ConstraintId) :
    (s.remove id).session = { s with constraints := s.constraints.filter (·.id != id) } := by
  unfold remove
  split
  · rename_i hnone
    rw [← eraseP_eq_filter h, List.eraseP_of_forall_not (by simpa [constraint?] using hnone)]
  · rw [eraseP_eq_filter h]

theorem toggle_of_unknown (now : Timestamp) {id : ConstraintId} (h : id ∉ s.constraints.map (·.id)) (active : Option Bool) :
    s.toggle now id active = ⟨false, s, []⟩ := by
  have hnone : s.constraints.findIdx? (·.id == id) = none := by
    rw [List.findIdx?_eq_none_iff]
    simpa using fun c hc (heq : c.id = id) => h (List.mem_map.mpr ⟨c, hc, heq⟩)
  simp only [toggle, hnone]

theorem orderly_perform (observer : Observer) (now : Timestamp) (s : Session) (operation : Operation)
    (hfresh : (s.constraints.map (·.id) ++ (s.perform observer now operation).answer.issued).Nodup) :
    Orderly s operation (s.perform observer now operation) := by
  have hchanges := s.changes_perform observer now operation
  have hdistinct := (List.nodup_append.mp hfresh).1
  refine ⟨?row, ?active, ?satisfied, ?removed, ?unknown, ?refused⟩
  case row => rw [hchanges.ids_eq, ids_spared hdistinct]
  case active =>
    intro c hc c' hc' hid hne
    cases hchanges.revises hfresh hc hc' hid with
    | untouched => exact absurd rfl hne
    | toggled => exact ⟨_, rfl⟩
    | overturned _ => exact absurd rfl hne
  case satisfied =>
    intro c hc c' hc' hid hne
    cases hchanges.revises hfresh hc hc' hid with
    | untouched => exact absurd rfl hne
    | toggled => exact absurd rfl hne
    | overturned hsolved =>
      obtain ⟨d, hd, hactive, heq⟩ := hsolved
      exact ⟨rfl, eq_of_id_eq hdistinct hd hc heq ▸ hactive⟩
  case removed =>
    rintro id rfl
    exact session_remove hdistinct id
  case unknown =>
    rintro id (rfl | ⟨active, rfl⟩) hid
    · simp only [perform, remove, constraint?_eq_none hid, Outcome.map, and_self]
    · simp only [perform, toggle_of_unknown now hid, Outcome.map, and_self]
  case refused =>
    intro hcreates hnone
    have hgrows : Grows s (s.perform observer now operation).answer.issued (s.perform observer now operation).session := by
      cases hcreates with
      | create => exact s.grows_create now _
      | connectPairs => exact s.grows_connectAll now _
    rw [hnone] at hgrows
    exact hgrows.eq_of_nil

/-! ### Runs -/

theorem ofSettings_eq_ok {settings : Settings} {series : Series} {hasStore : Bool} {start : Session}
    (h : ofSettings settings series hasStore = .ok start) :
    ∃ solver, start = { solver, suggestions := settings.suggestions, series, hasStore } := by
  simp only [ofSettings, bind_eq_ok, pure_eq_ok] at h
  obtain ⟨solver, _, _, _, h⟩ := h
  exact ⟨solver, h.symm⟩

section Runs
variable (observer : Observer)

/-- What is stored in the end has been there from the start, or it is new. -/
theorem sameAs_or_issued (s : Session) {operations : List (Timestamp × Operation)} {c' : Constraint}
    (h : c' ∈ (s.after observer operations).constraints) :
    (∃ c ∈ s.constraints, c.SameAs c') ∨ c'.id ∈ s.issued observer operations := by
  induction operations generalizing s with
  | nil => exact .inl ⟨c', h, .refl c'⟩
  | cons o rest ih =>
    rw [issued, gathered_cons, List.mem_append]
    rcases ih _ h with ⟨c, hc, hsame⟩ | hissued
    · rcases (s.changes_perform observer o.1 o.2).source hc with ⟨d, hd, hrevised⟩ | ⟨hissued, _⟩
      · exact .inl ⟨d, hd, hrevised.sameAs.trans hsame⟩
      · exact .inr (.inl (hsame.id ▸ hissued))
    · exact .inr (.inr hissued)

/-- At any point of a run that began without constraints, the identifiers that are stored and those that will be
issued are among all that the run issues, in this order. -/
theorem fresh {s : Session} (hempty : s.constraints = []) (before later : List (Timestamp × Operation)) :
    ((s.after observer before).constraints.map (·.id) ++ (s.after observer before).issued observer later).Sublist
      (s.issued observer (before ++ later)) := by
  have hstored := s.ids_sublist observer before
  rw [hempty, List.map_nil, List.nil_append] at hstored
  rw [issued, issued, gathered_append]
  exact hstored.append (.refl _)

variable {settings : Settings} {space : Uuid} {hasStore : Bool} {start : Session}
  (h : ofSettings settings (.ofSpace space) hasStore = .ok start)
include h

theorem issued_ofSettings (operations : List (Timestamp × Operation)) :
    start.issued observer operations = (Series.ofSpace space).take (start.issued observer operations).length := by
  obtain ⟨solver, hstart⟩ := ofSettings_eq_ok h
  have heq := (start.issued_eq observer operations).1
  rwa [show start.series = .ofSpace space by rw [hstart]] at heq

theorem nodup_fresh {before later : List (Timestamp × Operation)}
    (hdistinct : Series.Distinct space (start.issued observer (before ++ later)).length) :
    ((start.after observer before).constraints.map (·.id) ++
      (start.after observer before).issued observer later).Nodup := by
  obtain ⟨solver, hstart⟩ := ofSettings_eq_ok h
  have hnodup : (start.issued observer (before ++ later)).Nodup := by
    rw [issued_ofSettings observer h]
    exact Series.nodup_take hdistinct
  exact hnodup.sublist (fresh observer (by rw [hstart]) before later)

/-- Each operation of a run issues identifiers that nothing has that is stored then. -/
theorem nodup_perform {before rest : List (Timestamp × Operation)} {now : Timestamp} {operation : Operation}
    (hdistinct : Series.Distinct space (start.issued observer (before ++ (now, operation) :: rest)).length) :
    let s := start.after observer before
    (s.constraints.map (·.id) ++ (s.perform observer now operation).answer.issued).Nodup := by
  have hfresh := nodup_fresh observer h hdistinct
  rw [issued, gathered_cons, ← List.append_assoc] at hfresh
  exact (List.nodup_append.mp hfresh).1

theorem nodup_after {operations : List (Timestamp × Operation)}
    (hdistinct : Series.Distinct space (start.issued observer operations).length) :
    ((start.after observer operations).constraints.map (·.id)).Nodup := by
  rw [← List.append_nil operations] at hdistinct
  exact (List.nodup_append.mp (nodup_fresh observer h hdistinct)).1

/-- **Constraints keep their identity over whole sessions.** If no two of the numbers that a run uses have one
identifier, the `k`-th constraint that is created gets the `k`-th identifier of the name space, whatever has been
removed by then; and the stored constraints differ in their identifiers and stand in the order of creation. At
every point of the run, what will have the identifier of a constraint that is stored then is that constraint, with
all that it asks for; and each operation is orderly. -/
theorem run_keeps_identity (operations : List (Timestamp × Operation))
    (hdistinct : Series.Distinct space (start.issued observer operations).length) :
    let issued := start.issued observer operations
    let final := start.after observer operations
    issued = (List.range issued.length).map (Series.nth space) ∧
    (final.constraints.map (·.id)).Sublist issued ∧ (final.constraints.map (·.id)).Nodup ∧
    ∀ before later, operations = before ++ later →
      let s := start.after observer before
      (∀ c ∈ s.constraints, ∀ c' ∈ final.constraints, c'.id = c.id → c.SameAs c') ∧
      ∀ now operation rest, later = (now, operation) :: rest → s.Orderly operation (s.perform observer now operation) := by
  intro issued final
  have hstored : (final.constraints.map (·.id)).Sublist issued := by
    obtain ⟨solver, hstart⟩ := ofSettings_eq_ok h
    have hfresh := fresh observer (show start.constraints = [] by rw [hstart]) operations []
    rw [List.append_nil] at hfresh
    exact (List.sublist_append_left ..).trans hfresh
  refine ⟨(issued_ofSettings observer h operations).trans (Series.take_ofSpace space _), hstored,
    nodup_after observer h hdistinct, ?_⟩
  rintro before later rfl s
  constructor
  · intro c hc c' hc' hid
    have hfinal : final = s.after observer later := after_append observer before later start
    obtain ⟨hids, _, hnew⟩ := List.nodup_append.mp (nodup_fresh observer h hdistinct)
    rcases s.sameAs_or_issued observer (hfinal ▸ hc') with ⟨d, hd, hsame⟩ | hlater
    · rwa [eq_of_id_eq hids hc hd (hid.symm.trans hsame.id)]
    · exact absurd hid.symm (hnew _ (List.mem_map_of_mem hc) _ hlater)
  · rintro now operation rest rfl
    exact s.orderly_perform observer now operation (nodup_perform observer h hdistinct)

end Runs

/-- Of two constraints on a line the first is removed, and the line is solved. The second one is still there and
asks for the same. -/
theorem run_keeps_identity_removed :
    let start : Session := { solver := ⟨{}⟩, suggestions := {}, series := .ofSpace ⟨7⟩ }
    let line : Snapshot := .ofList [(⟨⟨1⟩⟩, .line ⟨0.0, 0.0⟩ ⟨2.0, 1.0⟩)]
    let before : List (Timestamp × Operation) :=
      [(⟨1, 0⟩, .replaceGeometry line), (⟨2, 0⟩, .create { kind := .vertical, entities := [⟨⟨1⟩⟩] }),
        (⟨3, 0⟩, .create { kind := .horizontal, entities := [⟨⟨1⟩⟩], description := some "level" })]
    let later : List (Timestamp × Operation) := [(⟨4, 0⟩, .remove (Series.nth ⟨7⟩ 0)), (⟨5, 0⟩, .solve)]
    let s := start.after .silent before
    let final := start.after .silent (before ++ later)
    ofSettings {} (.ofSpace ⟨7⟩) false = .ok start ∧ Series.Distinct ⟨7⟩ 2 ∧
      start.issued .silent (before ++ later) = [Series.nth ⟨7⟩ 0, Series.nth ⟨7⟩ 1] ∧
      final.constraints.map (·.kind) = [.horizontal] ∧
      ∀ c ∈ s.constraints, ∀ c' ∈ final.constraints, c'.id = c.id → c.SameAs c' := by
  intro start line before later s final
  have hstart : ofSettings {} (.ofSpace ⟨7⟩) false = .ok start := rfl
  have hdistinct : Series.Distinct ⟨7⟩ 2 := by decide +kernel
  have hissued : start.issued .silent (before ++ later) = [Series.nth ⟨7⟩ 0, Series.nth ⟨7⟩ 1] := rfl
  obtain ⟨_, _, _, hsplits⟩ := run_keeps_identity .silent hstart (before ++ later) (by rwa [hissued])
  exact ⟨hstart, hdistinct, hissued, by decide +kernel, (hsplits before later rfl).1⟩

end Session

end Drafting
