import Drafting.Proofs.Admission
import Drafting.Proofs.Session.Change

/-! What connecting pairs comes to.

Each pair is connected by the constraint that it suggests, unless something stored
does that already. Everything rests on two facts about one pair
(`Session.connect_cases`): a suggestion for two entities is always admitted
(`check_of_suggests`), though the check was not written with suggestions in mind,
and afterwards the pair is connected, whether by the new constraint or by an old
one. The row only grows, so what was connected stays connected: that makes the
result complete, keeps new constraints from repeating old ones, and leaves nothing
for a second time. -/
namespace Drafting

/-- The constraint is of this kind and on these two entities, in either order. -/
structure Constraint.Connects (kind : ConstraintKind) (first second : EntityId) (c : Constraint) : Prop where
  kind : c.kind = kind
  entities : c.entities.Perm [first, second]

namespace Session

/-- Two different entities of the session suggest a constraint. -/
structure Suggests (s : Session) (first second : EntityId) (kind : ConstraintKind) : Prop where
  distinct : first ≠ second
  near : ∃ a b, s.geometry.get? first = some a ∧ s.geometry.get? second = some b ∧
    suggest s.suggestions a b = some kind

theorem Suggests.suggest_eq {s : Session} {first second : EntityId} {kind : ConstraintKind}
    (h : s.Suggests first second kind) {a b : Entity} (ha : s.geometry.get? first = some a)
    (hb : s.geometry.get? second = some b) : suggest s.suggestions a b = some kind := by
  obtain ⟨a', b', ha', hb', hsuggest⟩ := h.near
  obtain rfl := Option.some.inj (ha.symm.trans ha')
  obtain rfl := Option.some.inj (hb.symm.trans hb')
  exact hsuggest

theorem Suggests.unique {s : Session} {first second : EntityId} {kind kind' : ConstraintKind}
    (h : s.Suggests first second kind) (h' : s.Suggests first second kind') : kind = kind' := by
  obtain ⟨a, b, ha, hb, hsuggest⟩ := h.near
  exact Option.some.inj (hsuggest.symm.trans (h'.suggest_eq ha hb))

/-! ### Suggestions are admitted -/

theorem suggest_cases {settings : SuggestionSettings} {a b : Entity} {kind : ConstraintKind}
    (h : suggest settings a b = some kind) :
    (kind = .parallel ∨ kind = .perpendicular) ∧ a.kind = .line ∧ b.kind = .line ∨
    (kind = .concentric ∨ kind = .equalRadius) ∧ a.kind.isCircular = true ∧ b.kind.isCircular = true := by
  cases a <;> cases b <;> simp only [suggest, Entity.segment?, Entity.circular?, reduceCtorEq] at h
  case line.line =>
    refine .inl ⟨?_, rfl, rfl⟩
    split at h
    · cases h
    · split at h
      · exact .inl (Option.some.inj h).symm
      · split at h
        · exact .inr (Option.some.inj h).symm
        · cases h
  all_goals
    refine .inr ⟨?_, rfl, rfl⟩
    split at h
    · exact .inl (Option.some.inj h).symm
    · split at h
      · exact .inr (Option.some.inj h).symm
      · cases h

/-- What two entities suggest passes every stage of admission, whatever the parameters. -/
theorem check_of_suggests {s : Session} {first second : EntityId} {kind : ConstraintKind}
    (h : s.Suggests first second kind) (parameters : Parameters) :
    Admission.check s.geometry kind [first, second] parameters = .ok () := by
  obtain ⟨a, b, ha, hb, hsuggest⟩ := h.near
  have hfound : Admission.kinds s.geometry [first, second] = .ok [(first, a.kind), (second, b.kind)] := by
    simp [Admission.kinds, ha, hb, Except.map]
  have hdistinct : Admission.firstRepeated? [] [first, second] = none := by
    simp [Admission.firstRepeated?_eq_none, h.distinct]
  obtain ⟨hkind, hline, hline'⟩ | ⟨hkind, hround, hround'⟩ := suggest_cases hsuggest
  · obtain rfl | rfl := hkind <;>
      exact Admission.check_eq_ok.mpr
        ⟨⟨_, hfound, by simp [Admission.places, Expected.admits, hline, hline']⟩, rfl, hdistinct, rfl, rfl⟩
  · obtain rfl | rfl := hkind <;>
      exact Admission.check_eq_ok.mpr
        ⟨⟨_, hfound, by simp [Admission.places, Expected.admits, hround, hround']⟩, rfl, hdistinct, rfl, rfl⟩

/-- A request for what two entities suggest is granted. -/
theorem create_of_suggests {s : Session} {first second : EntityId} {kind : ConstraintKind}
    (h : s.Suggests first second kind) (now : Timestamp) {r : Request} (hkind : r.kind = kind)
    (hentities : r.entities = [first, second]) :
    ∃ c : Constraint, (s.create now r).answer = .ok c.id ∧
      (s.create now r).session = { s with series := s.series.advance, constraints := s.constraints ++ [c] } ∧
      c.kind = kind ∧ c.entities = [first, second] ∧ c.active = true ∧ c.satisfied = false ∧
      c.priority = r.priority.getD .normal := by
  have hcheck := check_of_suggests h r.parameters
  rw [← hkind, ← hentities] at hcheck
  unfold create
  simp only [hcheck]
  exact ⟨_, rfl, rfl, hkind, hentities, rfl, rfl, rfl⟩

/-- A request that admission refuses leaves a line in the log. -/
theorem create_of_refused {s : Session} {r : Request} {e : AdmissionError}
    (h : Admission.check s.geometry r.kind r.entities r.parameters = .error e) (now : Timestamp) :
    s.create now r = ⟨.error e, s, [.logged (.rejected r.kind e)]⟩ := by
  simp only [create, h]

/-! ### One pair -/

/-- The constraint connects two entities that suggest it, and nothing in the row does that already. -/
structure Joins (s : Session) (first second : EntityId) (row : List Constraint) (c : Constraint) : Prop where
  active : c.active = true
  satisfied : c.satisfied = false
  priority : c.priority = .low
  entities : c.entities = [first, second]
  suggests : s.Suggests first second c.kind
  fresh : ∀ d ∈ row, ¬ d.Connects c.kind first second

/-- What two entities of the session suggest is there. -/
def Connected (s : Session) (first second : EntityId) : Prop :=
  ∀ kind, s.Suggests first second kind → ∃ c ∈ s.constraints, c.Connects kind first second

/-- The request that is made for a suggestion. -/
def joining (kind : ConstraintKind) (first second : EntityId) : Request :=
  { kind, entities := [first, second], priority := some .low, description := some kind.suggestionText }

theorem any_connects {l : List Constraint} {kind : ConstraintKind} {first second : EntityId} :
    (l.any fun c => c.kind == kind && c.entities.isPerm [first, second]) = true ↔
      ∃ c ∈ l, c.Connects kind first second := by
  simp only [List.any_eq_true, Bool.and_eq_true, beq_iff_eq, List.isPerm_iff]
  refine exists_congr fun c => and_congr_right fun _ => ?_
  exact ⟨fun h => ⟨h.1, h.2⟩, fun h => ⟨h.kind, h.entities⟩⟩

/-- A suggestion that nothing stored meets is granted. -/
theorem joins_create {s : Session} {first second : EntityId} {kind : ConstraintKind} (h : s.Suggests first second kind)
    (hfresh : ∀ d ∈ s.constraints, ¬ d.Connects kind first second) (now : Timestamp) :
    ∃ c, s.Joins first second s.constraints c ∧ (s.create now (joining kind first second)).answer = .ok c.id ∧
      (s.create now (joining kind first second)).session =
        { s with series := s.series.advance, constraints := s.constraints ++ [c] } := by
  obtain ⟨c, hanswer, hsession, rfl, hentities, hactive, hsatisfied, hpriority⟩ :=
    create_of_suggests h now (r := joining kind first second) rfl rfl
  exact ⟨c, ⟨hactive, hsatisfied, hpriority, hentities, h, hfresh⟩, hanswer, hsession⟩

/-- A pair gets the constraint that it suggests, or it is connected already and all that happens is a
line in the log. -/
theorem connect_cases (now : Timestamp) (first second : EntityId) (s : Session) :
    (∃ c, s.Joins first second s.constraints c ∧ (s.connect now first second).answer = [c.id] ∧
      (s.connect now first second).session =
        { s with series := s.series.advance, constraints := s.constraints ++ [c] }) ∨
    s.Connected first second ∧ ∃ log : List Event, s.connect now first second = ⟨[], s, log.map .logged⟩ := by
  unfold connect
  split
  · rename_i a b ha hb
    cases hsuggest : suggest s.suggestions a b with
    | none =>
      refine .inr ⟨fun kind h => ?_, [], rfl⟩
      cases hsuggest.symm.trans (h.suggest_eq ha hb)
    | some kind =>
      have hkind : ∀ {kind'}, s.Suggests first second kind' → kind' = kind := fun h =>
        Option.some.inj ((h.suggest_eq ha hb).symm.trans hsuggest)
      by_cases hany : (s.constraints.any fun c => c.kind == kind && c.entities.isPerm [first, second]) = true
      · simp only [hany, if_true]
        refine .inr ⟨fun kind' h => ?_, [_], rfl⟩
        rw [hkind h]
        exact any_connects.mp hany
      · simp only [if_neg hany]
        -- Only an entity that is paired with itself is refused.
        cases hcheck : Admission.check s.geometry kind [first, second] (joining kind first second).parameters with
        | error e =>
          have hrefused := create_of_refused (r := joining kind first second) hcheck now
          unfold joining at hrefused
          rw [hrefused]
          refine .inr ⟨fun kind' h => ?_, [_, _], rfl⟩
          obtain rfl := hkind h
          cases hcheck.symm.trans (check_of_suggests h _)
        | ok _ =>
          have hnodup := (Admission.firstRepeated?_eq_none.mp (Admission.check_eq_ok.mp hcheck).distinct).1
          have hsuggests : s.Suggests first second kind := ⟨by simpa using hnodup, a, b, ha, hb, hsuggest⟩
          obtain ⟨c, hjoins, hanswer, hsession⟩ :=
            joins_create hsuggests (fun d hd hconnects => hany (any_connects.mpr ⟨d, hd, hconnects⟩)) now
          unfold joining at hanswer hsession
          simp only [hanswer, hsession]
          exact .inl ⟨c, hjoins, rfl, rfl⟩
  · rename_i hmissing
    refine .inr ⟨fun kind h => ?_, [_], rfl⟩
    obtain ⟨a, b, ha, hb, _⟩ := h.near
    exact absurd hb (hmissing a b ha)

/-! ### A row of pairs -/

theorem mem_pairs {α : Type} {l : List α} {a b : α} :
    (a, b) ∈ pairs l ↔ ∃ i j : Nat, i < j ∧ l[i]? = some a ∧ l[j]? = some b := by
  induction l with
  | nil => simp [pairs]
  | cons x rest ih =>
    rw [pairs, List.mem_append, ih]
    constructor
    · intro h
      rcases h with h | ⟨i, j, hij, hi, hj⟩
      · obtain ⟨y, hy, hpair⟩ := List.mem_map.mp h
        cases hpair
        obtain ⟨j, hj⟩ := List.mem_iff_getElem?.mp hy
        exact ⟨0, j + 1, Nat.succ_pos j, rfl, hj⟩
      · exact ⟨i + 1, j + 1, Nat.succ_lt_succ hij, hi, hj⟩
    · intro ⟨i, j, hij, hi, hj⟩
      obtain ⟨j, rfl⟩ : ∃ j', j = j' + 1 := ⟨j - 1, by omega⟩
      cases i with
      | zero =>
        cases hi
        exact .inl (List.mem_map.mpr ⟨b, List.mem_of_getElem? hj, rfl⟩)
      | succ i => exact .inr ⟨i, j, Nat.lt_of_succ_lt_succ hij, hi, hj⟩

section Rows
variable (now : Timestamp)

/-- Where the geometry and the thresholds stay, the suggestions do. -/
theorem Grows.suggests_eq {s s' : Session} {ids : List ConstraintId} (h : Grows s ids s') :
    s'.Suggests = s.Suggests := by
  have hgeometry : s'.geometry = s.geometry := by rw [h.session]
  have hsettings : s'.suggestions = s.suggestions := by rw [h.session]
  funext first second kind
  refine propext ⟨fun h => ⟨h.distinct, ?_⟩, fun h => ⟨h.distinct, ?_⟩⟩
  · rw [← hgeometry, ← hsettings]
    exact h.near
  · rw [hgeometry, hsettings]
    exact h.near

theorem Grows.joins {s s' : Session} {ids : List ConstraintId} (h : Grows s ids s') {first second : EntityId}
    {row : List Constraint} {c : Constraint} (hjoins : s'.Joins first second row c) : s.Joins first second row c :=
  ⟨hjoins.active, hjoins.satisfied, hjoins.priority, hjoins.entities, h.suggests_eq ▸ hjoins.suggests, hjoins.fresh⟩

/-- What is connected stays connected. -/
theorem Grows.connected {s s' : Session} {ids : List ConstraintId} (h : Grows s ids s') {first second : EntityId}
    (hconnected : s.Connected first second) : s'.Connected first second := by
  intro kind hsuggests
  rw [h.suggests_eq] at hsuggests
  obtain ⟨c, hc, hconnects⟩ := hconnected kind hsuggests
  obtain ⟨new, hrow, _⟩ := h.row
  exact ⟨c, hrow ▸ List.mem_append_left new hc, hconnects⟩

theorem connected_connect (first second : EntityId) (s : Session) :
    (s.connect now first second).session.Connected first second := by
  obtain ⟨c, hjoins, _, hsession⟩ | ⟨hconnected, log, hnothing⟩ := connect_cases now first second s
  · intro kind hsuggests
    rw [(s.grows_connect now first second).suggests_eq] at hsuggests
    rw [hsession]
    refine ⟨c, List.mem_append_right _ (List.mem_singleton_self c), hjoins.suggests.unique hsuggests, ?_⟩
    rw [hjoins.entities]
  · rw [hnothing]
    exact hconnected

/-- Afterwards every pair is connected. -/
theorem connected_connectAll (l : List (EntityId × EntityId)) (s : Session) :
    ∀ pair ∈ l, (s.connectAll now l).session.Connected pair.1 pair.2 := by
  induction l generalizing s with
  | nil => exact List.forall_mem_nil _
  | cons pair rest ih =>
    refine List.forall_mem_cons.mpr ⟨?_, ih _⟩
    exact (grows_connectAll now _ rest).connected (connected_connect now pair.1 pair.2 s)

/-- Each new constraint connects a pair that nothing before it connects. -/
theorem joins_connectAll (l : List (EntityId × EntityId)) (s : Session) {earlier later : List Constraint} {c : Constraint}
    (h : (s.connectAll now l).session.constraints = s.constraints ++ (earlier ++ c :: later)) :
    ∃ pair ∈ l, s.Joins pair.1 pair.2 (s.constraints ++ earlier) c := by
  induction l generalizing s earlier with
  | nil => simp [connectAll] at h
  | cons pair rest ih =>
    obtain ⟨first, second⟩ := pair
    have hgrows := s.grows_connect now first second
    simp only [connectAll] at h
    obtain ⟨d, hjoins, _, hsession⟩ | ⟨_, log, hnothing⟩ := connect_cases now first second s
    · have hnext : (s.connect now first second).session.constraints = s.constraints ++ [d] := by rw [hsession]
      obtain ⟨new, hrow, _⟩ := (grows_connectAll now (s.connect now first second).session rest).row
      have hnew : d :: new = earlier ++ c :: later := by
        rwa [hrow, hnext, List.append_assoc, List.append_cancel_left_eq] at h
      cases earlier with
      | nil =>
        cases hnew
        rw [List.append_nil]
        exact ⟨_, List.mem_cons_self, hjoins⟩
      | cons e earlier =>
        cases hnew
        obtain ⟨pair, hmem, hlater⟩ := ih _ hrow
        rw [hnext, List.append_assoc] at hlater
        exact ⟨pair, List.mem_cons_of_mem _ hmem, hgrows.joins hlater⟩
    · rw [hnothing] at h
      obtain ⟨pair, hmem, hjoins⟩ := ih s h
      exact ⟨pair, List.mem_cons_of_mem _ hmem, hjoins⟩

/-- Where every pair is connected, nothing happens but lines in the log. -/
theorem connectAll_of_connected {l : List (EntityId × EntityId)} {s : Session}
    (h : ∀ pair ∈ l, s.Connected pair.1 pair.2) :
    ∃ log : List Event, s.connectAll now l = ⟨[], s, log.map .logged⟩ := by
  induction l with
  | nil => exact ⟨[], rfl⟩
  | cons pair rest ih =>
    obtain ⟨hpair, hrest⟩ := List.forall_mem_cons.mp h
    obtain ⟨log, hlog⟩ := ih hrest
    obtain ⟨c, hjoins, _⟩ | ⟨_, log', hnothing⟩ := connect_cases now pair.1 pair.2 s
    · obtain ⟨d, hd, hconnects⟩ := hpair c.kind hjoins.suggests
      exact absurd hconnects (hjoins.fresh d hd)
    · refine ⟨log' ++ log, ?_⟩
      simp only [connectAll, hnothing, hlog, List.map_append, List.append_nil]

end Rows

/-- **Connecting pairs is complete, repeats nothing, and is done after one time.** Whatever two entities at
places `i < j` of the list suggest is admitted, and is there afterwards. The answer names the constraints that
came in at the end of the row, in order; each is active, not yet satisfied, of low priority, and connects two
such entities that nothing before it in the row connects in that way; nothing else changes in the session.
Connecting the same list again changes nothing, and nobody is told. -/
theorem connectPairs_settles (s : Session) (now : Timestamp) (ids : List EntityId) :
    let o := s.connectPairs now ids
    (∀ (i j : Nat) (first second : EntityId) (kind : ConstraintKind), i < j → ids[i]? = some first →
      ids[j]? = some second → s.Suggests first second kind →
        (∃ c ∈ o.session.constraints, c.Connects kind first second) ∧
        ∀ r : Request, r.kind = kind → r.entities = [first, second] → ∃ id, (s.create now r).answer = .ok id) ∧
    (∃ new, o.session = { s with series := s.series.drop o.answer.length, constraints := s.constraints ++ new } ∧
      o.answer = new.map (·.id) ∧
      ∀ earlier c later, new = earlier ++ c :: later →
        ∃ (i j : Nat) (first second : EntityId), i < j ∧ ids[i]? = some first ∧ ids[j]? = some second ∧
          s.Joins first second (s.constraints ++ earlier) c) ∧
    ∀ again, ∃ log : List Event, o.session.connectPairs again ids = ⟨[], o.session, log.map .logged⟩ := by
  intro o
  have hgrows : Grows s o.answer o.session := s.grows_connectAll now (pairs ids)
  have hconnected : ∀ pair ∈ pairs ids, o.session.Connected pair.1 pair.2 := connected_connectAll now (pairs ids) s
  refine ⟨fun i j first second kind hij hi hj hsuggests => ⟨?_, fun r hkind hentities => ?_⟩, ?_, fun again => ?_⟩
  · exact hconnected _ (mem_pairs.mpr ⟨i, j, hij, hi, hj⟩) kind (hgrows.suggests_eq ▸ hsuggests)
  · obtain ⟨c, hanswer, _⟩ := create_of_suggests hsuggests now hkind hentities
    exact ⟨c.id, hanswer⟩
  · obtain ⟨new, hrow, hnew, _⟩ := hgrows.row
    refine ⟨new, hrow ▸ hgrows.session, hnew.symm, fun earlier c later hsplit => ?_⟩
    obtain ⟨pair, hpair, hjoins⟩ := joins_connectAll now (pairs ids) s (hsplit ▸ hrow)
    obtain ⟨i, j, hij, hi, hj⟩ := mem_pairs.mp hpair
    exact ⟨i, j, _, _, hij, hi, hj, hjoins⟩
  · exact connectAll_of_connected again hconnected

/-- Two circles about nearly one center, the second also listed before the first. -/
theorem connectPairs_settles_circles :
    let s : Session :=
      { solver := ⟨{}⟩, suggestions := {}, series := default
        geometry := .ofList [(⟨⟨1⟩⟩, .circle ⟨0.0, 0.0⟩ 5.0), (⟨⟨2⟩⟩, .circle ⟨1.0, 0.0⟩ 7.0)] }
    let o := s.connectPairs default [⟨⟨2⟩⟩, ⟨⟨1⟩⟩, ⟨⟨2⟩⟩]
    (∃ c ∈ o.session.constraints, c.Connects .concentric ⟨⟨1⟩⟩ ⟨⟨2⟩⟩) ∧ o.session.constraints.length = 1 := by
  intro s o
  have hsuggests : s.Suggests ⟨⟨1⟩⟩ ⟨⟨2⟩⟩ .concentric :=
    ⟨by decide, .circle ⟨0.0, 0.0⟩ 5.0, .circle ⟨1.0, 0.0⟩ 7.0, by decide +kernel, by decide +kernel, by decide +kernel⟩
  exact ⟨((connectPairs_settles s default _).1 1 2 _ _ _ (by decide) rfl rfl hsuggests).1, by decide +kernel⟩

end Session

end Drafting
