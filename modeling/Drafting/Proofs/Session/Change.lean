import Drafting.Proofs.Identifier.Series
import Drafting.Proofs.Session.Rest

/-! What an operation does to the row of constraints.

Seen from the row, an operation may take one constraint out, may revise the others
where they are (`Session.Revises`: a constraint stays as it is, or is switched over,
or gets the opposite verdict), and may put new constraints at the end, with the next
identifiers of the series, which admission has let in. `Session.changes_perform` says
this once for all operations. Two things follow for runs by induction: what admission
ensures and no revision breaks is true of every stored constraint; and a run issues the
next identifiers of the series, and those that are still stored are among them in the
same order. -/
namespace Drafting

namespace Constraint

/-- The constraint after a toggle. -/
def toggled (now : Timestamp) (active : Option Bool) (c : Constraint) : Constraint :=
  { c with active := active.getD !c.active }.touched now

/-- The constraint with the opposite verdict. -/
def overturned (now : Timestamp) (c : Constraint) : Constraint :=
  { c with satisfied := !c.satisfied }.touched now

end Constraint

/-- The identifiers that an answer gives to new constraints, in order. -/
def Answer.issued : Answer → List ConstraintId
  | .created (.ok id) => [id]
  | .connected ids => ids
  | _ => []

/-- The constraints that an operation does not take out. -/
def Operation.spared : Operation → List Constraint → List Constraint
  | .remove id, l => l.eraseP (·.id == id)
  | _, l => l

theorem Operation.spared_sublist (operation : Operation) (l : List Constraint) : (operation.spared l).Sublist l := by
  cases operation with
  | remove id => exact List.eraseP_sublist
  | _ => exact .refl l

namespace Session

/-! ### New constraints -/

/-- Admission lets the constraint in, and its parameters have been completed. -/
def Admits (s : Session) (c : Constraint) : Prop :=
  ∃ parameters, Admission.check s.geometry c.kind c.entities parameters = .ok () ∧
    c.parameters = s.completed c.kind c.entities parameters

/-- Admitted constraints came in at the end, with the next identifiers of the series, and nothing else happened. -/
structure Grows (s : Session) (ids : List ConstraintId) (s' : Session) : Prop where
  row : ∃ new, s'.constraints = s.constraints ++ new ∧ new.map (·.id) = ids ∧ ∀ c ∈ new, s.Admits c
  numbered : ids = s.series.take ids.length
  session : s' = { s with series := s.series.drop ids.length, constraints := s'.constraints }

namespace Grows

variable {s s' s'' : Session} {ids ids' : List ConstraintId}

theorem refl (s : Session) : Grows s [] s :=
  ⟨⟨[], (List.append_nil _).symm, rfl, List.forall_mem_nil _⟩, rfl, rfl⟩

theorem trans (h : Grows s ids s') (h' : Grows s' ids' s'') : Grows s (ids ++ ids') s'' := by
  obtain ⟨new, hrow, hnew, hadmitted⟩ := h.row
  obtain ⟨new', hrow', hnew', hadmitted'⟩ := h'.row
  have hseries : s'.series = s.series.drop ids.length := congrArg Session.series h.session
  have hadmits : s'.Admits = s.Admits := by
    rw [h.session]
    rfl
  refine ⟨⟨new ++ new', by rw [hrow', hrow, List.append_assoc], by rw [List.map_append, hnew, hnew'], ?_⟩, ?_, ?_⟩
  · exact List.forall_mem_append.mpr ⟨hadmitted, hadmits ▸ hadmitted'⟩
  · rw [List.length_append, Series.take_add, ← h.numbered, ← hseries, ← h'.numbered]
  · rw [List.length_append, ← Series.drop_drop, ← hseries]
    exact h'.session.trans (by rw [h.session])

theorem eq_of_nil (h : Grows s [] s') : s' = s := by
  obtain ⟨new, hrow, hnew, _⟩ := h.row
  rw [List.map_eq_nil_iff.mp hnew, List.append_nil] at hrow
  rw [h.session, hrow, List.length_nil, Series.drop_zero]

theorem listeners_eq (h : Grows s ids s') : s'.listeners = s.listeners := by rw [h.session]

theorem nextListener_eq (h : Grows s ids s') : s'.nextListener = s.nextListener := by rw [h.session]

theorem length_eq (h : Grows s ids s') : s'.constraints.length = s.constraints.length + ids.length := by
  obtain ⟨new, hrow, rfl, _⟩ := h.row
  rw [hrow, List.length_append, List.length_map]

end Grows

section Growth
variable (now : Timestamp) (s : Session)

theorem grows_create (r : Request) : Grows s (Answer.created (s.create now r).answer).issued (s.create now r).session := by
  unfold create
  split
  · exact .refl s
  · rename_i hcheck
    exact ⟨⟨[_], rfl, rfl, List.forall_mem_singleton.mpr ⟨r.parameters, hcheck, rfl⟩⟩, rfl, rfl⟩

theorem grows_connect (first second : EntityId) :
    Grows s (s.connect now first second).answer (s.connect now first second).session := by
  unfold connect
  split
  · split
    · exact .refl s
    · rename_i kind _
      split
      · exact .refl s
      · have hcreate := s.grows_create now
          { kind, entities := [first, second], priority := some .low, description := some kind.suggestionText }
        simp only
        split
        all_goals
          rename_i hanswer
          rw [hanswer] at hcreate
          exact hcreate
  · exact .refl s

theorem grows_connectAll (pairs : List (EntityId × EntityId)) :
    Grows s (s.connectAll now pairs).answer (s.connectAll now pairs).session := by
  induction pairs generalizing s with
  | nil => exact .refl s
  | cons pair rest ih => exact (s.grows_connect now pair.1 pair.2).trans (ih _)

end Growth

/-! ### Revisions -/

/-- How an operation on `s` may revise a constraint. -/
inductive Revises (now : Timestamp) (s : Session) : Operation → Constraint → Constraint → Prop where
  | untouched {operation : Operation} {c : Constraint} : Revises now s operation c c
  | toggled {c : Constraint} {active : Option Bool} : Revises now s (.toggle c.id active) c (c.toggled now active)
  | overturned {c : Constraint} (h : ∃ d ∈ s.constraints, d.active = true ∧ d.id = c.id) :
      Revises now s .solve c (c.overturned now)

/-- A constraint keeps its verdict, or gets the opposite one from a solution with its identifier. -/
theorem judged_cases (now : Timestamp) (solutions : List Solution) (c : Constraint) :
    judged now solutions c = c ∨
      (∃ solution ∈ solutions, solution.constraint = c.id) ∧ judged now solutions c = c.overturned now := by
  unfold judged
  split
  · rename_i solution hfound
    split
    · exact .inl rfl
    · rename_i hverdict
      have hmem := List.mem_reverse.mp (List.mem_of_find?_eq_some hfound)
      refine .inr ⟨⟨solution, hmem, by simpa using List.find?_some hfound⟩, ?_⟩
      rw [Constraint.overturned, Bool.eq_not.mpr (Ne.symm hverdict)]
  · exact .inl rfl

/-- Only the constraint at one place is revised. -/
theorem forall₂_modify {r : Constraint → Constraint → Prop} (hrefl : ∀ c, r c c) {f : Constraint → Constraint}
    {l : List Constraint} {i : Nat} (h : ∀ c, l[i]? = some c → r c (f c)) : List.Forall₂ r l (l.modify i f) := by
  induction l generalizing i with
  | nil => simp
  | cons c rest ih =>
    cases i with
    | zero => exact .cons (h c rfl) (List.forall₂_same.mpr fun d _ => hrefl d)
    | succ i => exact .cons (hrefl c) (ih h)

/-- Only active constraints have solutions. -/
theorem solved_of_solution {solver : Solver} {observer : Observer} {l : List Constraint} {snapshot : Snapshot}
    {id : ConstraintId} (h : ∃ solution ∈ (solver.run observer l snapshot).solutions, solution.constraint = id) :
    ∃ d ∈ l, d.active = true ∧ d.id = id := by
  obtain ⟨solution, hmem, rfl⟩ := h
  have hsolved := List.mem_map_of_mem hmem (f := (·.constraint))
  rw [Solver.run_constraints] at hsolved
  obtain ⟨d, hd, hid⟩ := List.mem_map.mp hsolved
  obtain ⟨hmem, hactive⟩ := mem_solveOrder.mp hd
  exact ⟨d, hmem, hactive, hid⟩

section Revisions
variable (observer : Observer) (now : Timestamp) (s : Session)

theorem revises_remove (id : ConstraintId) :
    List.Forall₂ (Revises now s (.remove id)) ((Operation.remove id).spared s.constraints)
      (s.remove id).session.constraints := by
  unfold remove
  split
  · rename_i hnone
    rw [Operation.spared, List.eraseP_of_forall_not (by simpa [constraint?] using hnone)]
    exact List.forall₂_same.mpr fun c _ => .untouched
  · exact List.forall₂_same.mpr fun c _ => .untouched

theorem revises_toggle (id : ConstraintId) (active : Option Bool) :
    List.Forall₂ (Revises now s (.toggle id active)) s.constraints (s.toggle now id active).session.constraints := by
  unfold toggle
  split
  · exact List.forall₂_same.mpr fun c _ => .untouched
  · rename_i i hfound
    refine forall₂_modify (fun c => .untouched) fun c hc => ?_
    obtain ⟨hlt, hid, _⟩ := List.findIdx?_eq_some_iff_getElem.mp hfound
    obtain rfl : s.constraints[i] = c := Option.some.inj ((List.getElem?_eq_getElem hlt).symm.trans hc)
    obtain rfl : s.constraints[i].id = id := by simpa using hid
    exact .toggled

theorem revises_solve :
    List.Forall₂ (Revises now s .solve) s.constraints (s.solve observer now).session.constraints := by
  refine List.forall₂_map_right_iff.mpr (List.forall₂_same.mpr fun c _ => ?_)
  rcases judged_cases now (s.solver.run observer s.constraints s.geometry).solutions c with h | ⟨hsolved, h⟩
  · rw [h]
    exact .untouched
  · rw [h]
    exact .overturned (solved_of_solution hsolved)

end Revisions

/-! ### One operation -/

/-- What an operation does to the row of constraints: it revises those that it spares, and new ones come
in behind them with the next identifiers of the series. -/
structure Changes (now : Timestamp) (s : Session) (operation : Operation) (o : Outcome Answer) : Prop where
  row : ∃ kept new, o.session.constraints = kept ++ new ∧
    List.Forall₂ (Revises now s operation) (operation.spared s.constraints) kept ∧
    new.map (·.id) = o.answer.issued ∧ ∀ c ∈ new, s.Admits c
  numbered : o.answer.issued = s.series.take o.answer.issued.length
  series : o.session.series = s.series.drop o.answer.issued.length

namespace Changes

variable {now : Timestamp} {s : Session} {operation : Operation} {o : Outcome Answer}

theorem of_revises (h : List.Forall₂ (Revises now s operation) (operation.spared s.constraints) o.session.constraints)
    (hissued : o.answer.issued = []) (hseries : o.session.series = s.series) : Changes now s operation o := by
  refine ⟨⟨_, [], (List.append_nil _).symm, h, hissued.symm, List.forall_mem_nil _⟩, ?_, ?_⟩
  · rw [hissued]
    rfl
  · rw [hissued]
    exact hseries

theorem of_grows (h : Grows s o.answer.issued o.session) (hspared : operation.spared s.constraints = s.constraints) :
    Changes now s operation o := by
  obtain ⟨new, hrow, hnew⟩ := h.row
  refine ⟨⟨s.constraints, new, hrow, ?_, hnew⟩, h.numbered, congrArg Session.series h.session⟩
  rw [hspared]
  exact List.forall₂_same.mpr fun c _ => .untouched

end Changes

/-- Where the row and the series stay, nothing is to be said about them. -/
theorem changes_perform (observer : Observer) (now : Timestamp) (s : Session) (operation : Operation) :
    Changes now s operation (s.perform observer now operation) := by
  have hsame : ∀ l : List Constraint, List.Forall₂ (Revises now s operation) l l := fun l =>
    List.forall₂_same.mpr fun c _ => .untouched
  cases operation with
  | replaceGeometry snapshot => exact .of_revises (hsame _) rfl rfl
  | create request => exact .of_grows (s.grows_create now request) rfl
  | remove id =>
    refine .of_revises (s.revises_remove now id) rfl ?_
    simp only [perform, remove, Outcome.map]
    split <;> rfl
  | toggle id active =>
    refine .of_revises (s.revises_toggle now id active) rfl ?_
    simp only [perform, toggle, Outcome.map]
    split <;> rfl
  | solve => exact .of_revises (s.revises_solve observer now) rfl rfl
  | connectPairs ids => exact .of_grows (s.grows_connectAll now (pairs ids)) rfl
  | listen react => exact .of_revises (hsame _) rfl rfl
  | unlisten id => exact .of_revises (hsame _) rfl rfl

theorem Revises.id_eq {now : Timestamp} {s : Session} {operation : Operation} {c c' : Constraint}
    (h : Revises now s operation c c') : c'.id = c.id := by
  cases h <;> rfl

namespace Changes

variable {now : Timestamp} {s : Session} {operation : Operation} {o : Outcome Answer}

/-- The identifiers after an operation, in order. -/
theorem ids_eq (h : Changes now s operation o) :
    o.session.constraints.map (·.id) = (operation.spared s.constraints).map (·.id) ++ o.answer.issued := by
  obtain ⟨kept, new, hrow, hkept, hnew, _⟩ := h.row
  have hids : kept.map (·.id) = (operation.spared s.constraints).map (·.id) := by
    rw [← List.forall₂_eq_eq_eq, List.forall₂_map_left_iff, List.forall₂_map_right_iff]
    exact hkept.flip.imp fun _ _ => Revises.id_eq
  rw [hrow, List.map_append, hids, hnew]

/-- A constraint after an operation is one from before, as the operation revised it, or it is new. -/
theorem source (h : Changes now s operation o) {c' : Constraint} (hc' : c' ∈ o.session.constraints) :
    (∃ c ∈ s.constraints, Revises now s operation c c') ∨ c'.id ∈ o.answer.issued ∧ s.Admits c' := by
  obtain ⟨kept, new, hrow, hkept, hnew, hadmitted⟩ := h.row
  rw [hrow] at hc'
  rcases List.mem_append.mp hc' with hc' | hc'
  · obtain ⟨c, hc, hrevised⟩ := exists_source hkept hc'
    exact .inl ⟨c, (operation.spared_sublist _).subset hc, hrevised⟩
  · exact .inr ⟨hnew ▸ List.mem_map_of_mem hc', hadmitted c' hc'⟩

end Changes

/-! ### Runs -/

section Runs
variable (observer : Observer) (s : Session)

/-- What admission ensures and no revision breaks, every stored constraint has. -/
theorem holds_after {P : Constraint → Prop} (hadmitted : ∀ {s c}, Admits s c → P c)
    (hrevised : ∀ {now s operation c c'}, Revises now s operation c c' → P c → P c') {s : Session}
    (h : ∀ c ∈ s.constraints, P c) (operations : List (Timestamp × Operation)) :
    ∀ c ∈ (s.after observer operations).constraints, P c := by
  induction operations generalizing s with
  | nil => exact h
  | cons o rest ih =>
    refine ih fun c' hc' => ?_
    rcases (s.changes_perform observer o.1 o.2).source hc' with ⟨c, hc, hrevises⟩ | ⟨_, hnew⟩
    · exact hrevised hrevises (h c hc)
    · exact hadmitted hnew

/-- What the answers of a run give, in order. -/
def gathered {α : Type} (f : Answer → List α) (operations : List (Timestamp × Operation)) : List α :=
  (s.run observer operations).1.flatMap fun step => f step.1

theorem gathered_cons {α : Type} (f : Answer → List α) (o : Timestamp × Operation) (rest : List (Timestamp × Operation)) :
    s.gathered observer f (o :: rest) =
      f (s.perform observer o.1 o.2).answer ++ (s.perform observer o.1 o.2).session.gathered observer f rest := rfl

theorem gathered_append {α : Type} (f : Answer → List α) (a b : List (Timestamp × Operation)) :
    s.gathered observer f (a ++ b) = s.gathered observer f a ++ (s.after observer a).gathered observer f b := by
  induction a generalizing s with
  | nil => rfl
  | cons o rest ih =>
    rw [List.cons_append, gathered_cons, gathered_cons, ih, List.append_assoc]
    rfl

/-- If every operation adds to a list at most what its answer gives, then so does a run. -/
theorem sublist_gathered {α : Type} (view : Session → List α) {f : Answer → List α}
    (hstep : ∀ (now : Timestamp) (operation : Operation) (s : Session),
      (view (s.perform observer now operation).session).Sublist (view s ++ f (s.perform observer now operation).answer))
    (operations : List (Timestamp × Operation)) :
    (view (s.after observer operations)).Sublist (view s ++ s.gathered observer f operations) := by
  induction operations generalizing s with
  | nil => exact List.sublist_append_left ..
  | cons o rest ih =>
    rw [gathered_cons, ← List.append_assoc]
    exact (ih _).trans ((hstep o.1 o.2 s).append (.refl _))

/-- The identifiers that a run issues, in order. -/
def issued (operations : List (Timestamp × Operation)) : List ConstraintId := s.gathered observer Answer.issued operations

/-- A run issues the next identifiers of the series, each of them once. -/
theorem issued_eq (operations : List (Timestamp × Operation)) :
    s.issued observer operations = s.series.take (s.issued observer operations).length ∧
      (s.after observer operations).series = s.series.drop (s.issued observer operations).length := by
  induction operations generalizing s with
  | nil => exact ⟨rfl, rfl⟩
  | cons o rest ih =>
    have hfirst := s.changes_perform observer o.1 o.2
    obtain ⟨hrest, hseries⟩ := ih (s.perform observer o.1 o.2).session
    rw [hfirst.series] at hrest hseries
    rw [issued] at hrest hseries ⊢
    rw [gathered_cons, List.length_append, Series.take_add, ← Series.drop_drop, ← hrest, ← hfirst.numbered]
    exact ⟨rfl, hseries⟩

/-- What is stored was stored before or has been issued since, in this order. -/
theorem ids_sublist (operations : List (Timestamp × Operation)) :
    ((s.after observer operations).constraints.map (·.id)).Sublist
      (s.constraints.map (·.id) ++ s.issued observer operations) := by
  refine s.sublist_gathered observer (fun s => s.constraints.map (·.id)) (fun now operation s => ?_) operations
  rw [(s.changes_perform observer now operation).ids_eq]
  exact ((operation.spared_sublist s.constraints).map _).append (.refl _)

end Runs

end Session

end Drafting
