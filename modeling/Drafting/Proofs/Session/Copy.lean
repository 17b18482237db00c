import Drafting.Proofs.Entity.Twin
import Drafting.Proofs.Solving.Pass
import Drafting.Session.Run

/-! The copy that the geometry store keeps.

A store that starts from the snapshot a session was given, and merges every batch
that it receives, holds a twin of the session's geometry after every operation
(`Session.copy_twin`): zeros may differ in sign and nothing else differs. What
carries this through a run is that each operation takes twins of the geometry
before it to twins of the geometry after it (`Session.Forwards`). Only a solve
changes the geometry at all, and since it keeps the keys and every kind, its batch
tells all of the change. -/
namespace Drafting

/-- The batch that an effect hands to the store. -/
def Effect.batch? : Effect → Option Batch
  | .stored batch => some batch
  | _ => none

/-- The batches that effects hand to the store. -/
def batches (effects : List Effect) : List Batch := effects.filterMap Effect.batch?

@[simp] theorem batches_nil : batches [] = [] := rfl

@[simp] theorem batches_append (a b : List Effect) : batches (a ++ b) = batches a ++ batches b :=
  List.filterMap_append

@[simp] theorem batches_logged (event : Event) (rest : List Effect) : batches (.logged event :: rest) = batches rest := rfl

@[simp] theorem batches_log (log : List Event) : batches (log.map .logged) = [] := by
  induction log with
  | nil => rfl
  | cons event rest ih => exact ih

/-- A batch that says something, about every entity in it. -/
def Batch.Telling (batch : Batch) : Prop := batch.isEmpty = false ∧ ∀ u ∈ batch.values, u.isEmpty = false

/-- The operation leaves the view of the geometry to the session. -/
def Operation.KeepsView : Operation → Prop
  | .replaceGeometry _ => False
  | _ => True

namespace Session

@[simp] theorem batches_notify (s : Session) : batches s.notify = [] := by
  unfold notify
  induction s.listeners with
  | nil => rfl
  | cons l rest ih =>
    rw [List.flatMap_cons, batches_append, ih]
    cases l.react s.constraints <;> rfl

/-- The effects between two states keep a copy of the geometry up to date. -/
structure Forwards (s : Session) (effects : List Effect) (s' : Session) : Prop where
  hasStore : s'.hasStore = s.hasStore
  twin : s.hasStore = true → ∀ {copy : Snapshot}, copy.Twin s.geometry →
    ((batches effects).foldl Snapshot.merge copy).Twin s'.geometry
  telling : ∀ batch ∈ batches effects, batch.Telling

namespace Forwards

variable {s s' s'' : Session} {effects effects' : List Effect}

/-- Where the geometry does not change, nothing has to be said. -/
theorem quiet (hstore : s'.hasStore = s.hasStore) (hgeometry : s'.geometry = s.geometry) (h : batches effects = []) :
    Forwards s effects s' := by
  refine ⟨hstore, fun _ copy hcopy => ?_, ?_⟩
  · rw [h, hgeometry]
    exact hcopy
  · rw [h]
    exact List.forall_mem_nil _

theorem trans (h : Forwards s effects s') (h' : Forwards s' effects' s'') : Forwards s (effects ++ effects') s'' := by
  refine ⟨h'.hasStore.trans h.hasStore, fun hstore copy hcopy => ?_, ?_⟩
  · rw [batches_append, List.foldl_append]
    exact h'.twin (h.hasStore.trans hstore) (h.twin hstore hcopy)
  · rw [batches_append]
    exact List.forall_mem_append.mpr ⟨h.telling, h'.telling⟩

end Forwards

/-! ### One operation -/

variable (observer : Observer) (now : Timestamp) (s : Session)

theorem forwards_create (r : Request) : Forwards s (s.create now r).effects (s.create now r).session := by
  unfold create
  split
  · exact .quiet rfl rfl rfl
  · exact .quiet rfl rfl (batches_notify _)

theorem forwards_remove (id : ConstraintId) : Forwards s (s.remove id).effects (s.remove id).session := by
  unfold remove
  split
  · exact .quiet rfl rfl rfl
  · exact .quiet rfl rfl (batches_notify _)

theorem forwards_toggle (id : ConstraintId) (active : Option Bool) :
    Forwards s (s.toggle now id active).effects (s.toggle now id active).session := by
  unfold toggle
  split
  · exact .quiet rfl rfl rfl
  · exact .quiet rfl rfl (batches_notify _)

theorem forwards_connect (first second : EntityId) :
    Forwards s (s.connect now first second).effects (s.connect now first second).session := by
  unfold connect
  split
  · split
    · exact .quiet rfl rfl rfl
    · rename_i kind _
      split
      · exact .quiet rfl rfl rfl
      · have hcreate := s.forwards_create now
          { kind, entities := [first, second], priority := some .low, description := some kind.suggestionText }
        simp only
        split
        · exact hcreate
        · exact hcreate.trans (.quiet rfl rfl rfl)
  · exact .quiet rfl rfl rfl

theorem forwards_connectAll (pairs : List (EntityId × EntityId)) :
    Forwards s (s.connectAll now pairs).effects (s.connectAll now pairs).session := by
  induction pairs generalizing s with
  | nil => exact .quiet rfl rfl rfl
  | cons pair rest ih => exact (s.forwards_connect now pair.1 pair.2).trans (ih _)

/-- A solve hands over exactly what a copy needs, or nothing if nothing changed. -/
theorem forwards_solve : Forwards s (s.solve observer now).effects (s.solve observer now).session := by
  have hconf := s.solver.run_confined observer s.constraints s.geometry
  have htwin {copy : Snapshot} (hcopy : copy.Twin s.geometry) :
      (copy.merge (Snapshot.changes s.geometry (s.solver.run observer s.constraints s.geometry).geometry)).Twin
        (s.solver.run observer s.constraints s.geometry).geometry := by
    refine Snapshot.twin_merge_changes hcopy hconf.keys fun {id e e'} he he' => ?_
    simpa [Snapshot.kind?, he, he'] using (hconf.kind?_eq id).symm
  refine ⟨rfl, fun hstore copy hcopy => ?_, fun batch hbatch => ?_⟩
  · simp only [solve, hstore, batches_append, batches_log, batches_notify, List.nil_append, List.append_nil, if_true]
    split
    · rename_i hempty
      rw [batches_nil, List.foldl_nil, ← copy.merge_of_isEmpty hempty]
      exact htwin hcopy
    · exact htwin hcopy
  · simp only [solve, batches_append, batches_log, batches_notify, List.nil_append, List.append_nil] at hbatch
    split at hbatch
    · cases hbatch
    · rename_i hempty
      split at hbatch
      · rw [batches_logged] at hbatch
        rw [List.mem_singleton.mp hbatch]
        exact ⟨by simpa using hempty, fun u hu => Snapshot.changes_ne_empty hu⟩
      · cases hbatch

theorem forwards_perform {operation : Operation} (h : operation.KeepsView) :
    Forwards s (s.perform observer now operation).effects (s.perform observer now operation).session := by
  cases operation with
  | replaceGeometry snapshot => exact h.elim
  | create request => exact s.forwards_create now request
  | remove id => exact s.forwards_remove id
  | toggle id active => exact s.forwards_toggle now id active
  | solve => exact s.forwards_solve observer now
  | connectPairs ids => exact s.forwards_connectAll now _
  | listen react => exact .quiet rfl rfl rfl
  | unlisten id => exact .quiet rfl rfl rfl

/-! ### Runs -/

/-- All effects of a run, in order. -/
def effectsOf (operations : List (Timestamp × Operation)) : List Effect :=
  (s.run observer operations).1.flatMap (·.2)

theorem forwards_run {operations : List (Timestamp × Operation)} (h : ∀ o ∈ operations, o.2.KeepsView) :
    Forwards s (s.effectsOf observer operations) (s.after observer operations) := by
  induction operations generalizing s with
  | nil => exact .quiet rfl rfl rfl
  | cons o rest ih =>
    obtain ⟨ho, hrest⟩ := List.forall_mem_cons.mp h
    exact (s.forwards_perform observer o.1 ho).trans (ih _ hrest)

/-- **The store's copy never drifts.** From the moment a session is given a snapshot until it is given
the next one, the snapshot with all batches merged in that the store received is a twin of the session's
geometry; and no batch is without updates, and no update without a field. -/
theorem copy_twin (hstore : s.hasStore = true) (snapshot : Snapshot) {operations : List (Timestamp × Operation)}
    (h : ∀ o ∈ operations, o.2.KeepsView) :
    let start := (s.replaceGeometry snapshot).session
    let received := batches (start.effectsOf observer operations)
    (received.foldl Snapshot.merge snapshot).Twin (start.after observer operations).geometry ∧
      ∀ batch ∈ received, batch.Telling := by
  intro start received
  have hrun := start.forwards_run observer h
  exact ⟨hrun.twin hstore (.refl snapshot), hrun.telling⟩

/-- A slanted line, made horizontal: one batch is received, and the copy has the new line. -/
theorem copy_twin_horizontal :
    let start : Session := { solver := ⟨{}⟩, suggestions := {}, series := default, hasStore := true }
    let slanted : Snapshot := .ofList [(⟨⟨1⟩⟩, .line ⟨0.0, 0.0⟩ ⟨2.0, 1.0⟩)]
    let operations : List (Timestamp × Operation) :=
      [(default, .create { kind := .horizontal, entities := [⟨⟨1⟩⟩] }), (default, .solve)]
    let received := batches ((start.replaceGeometry slanted).session.effectsOf .silent operations)
    received = [.ofList [(⟨⟨1⟩⟩, .line none (some ⟨2.0, 0.0⟩))]] ∧
      (received.foldl Snapshot.merge slanted).Twin
        ((start.replaceGeometry slanted).session.after .silent operations).geometry := by
  intro start slanted operations received
  have hkeeps : ∀ o ∈ operations, o.2.KeepsView := by simp [operations, Operation.KeepsView]
  exact ⟨by decide +kernel, (start.copy_twin .silent rfl slanted hkeeps).1⟩

end Session

end Drafting
