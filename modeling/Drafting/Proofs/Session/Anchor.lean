import Drafting.Proofs.Session.WriteBack
import Drafting.Proofs.Solving.Anchor

/-! Anchors in a session.

What no active constraint may move is where it was after a solve, and nobody is told
otherwise: it is in no solution's updates, and since the store receives the changes of
the whole pass, in no batch either. An entity with a field that is not a number is left
out of the second part, because it looks changed even where nothing was done. -/
namespace Drafting.Session

/-- What a pass over the session does about an entity: nothing. -/
structure LeavesAlone (s : Session) (observer : Observer) (now : Timestamp) (id : EntityId) : Prop where
  geometry : (s.solver.run observer s.constraints s.geometry).geometry.get? id = s.geometry.get? id
  updates : s.geometry.NumericAt id →
    ∀ solution ∈ (s.solver.run observer s.constraints s.geometry).solutions, id ∉ solution.updates
  batches : s.geometry.NumericAt id → ∀ batch ∈ batches (s.solve observer now).effects, id ∉ batch

variable (observer : Observer) (now : Timestamp) {s : Session} {id : EntityId}

theorem leavesAlone_of_anchors (h : s.solver.Anchors s.constraints s.geometry id) : LeavesAlone s observer now id := by
  have hsame := s.solver.run_frame observer h
  refine ⟨hsame, s.solver.not_mem_run_updates observer h, fun hnumeric batch hbatch => ?_⟩
  rw [(s.hands_solve observer now).eq_changes batch hbatch]
  exact Snapshot.not_mem_changes fun e he => ⟨hnumeric e he, hsame.trans he⟩

/-- **Anchors stay put.** An attempt changes no entity but those at the places where its constraint gives way. A solve
therefore leaves an entity alone that stands at no such place of an active constraint: it is where it was, and if
it is made of numbers, it is in no solution's updates and in no batch that the store receives. -/
theorem anchors_stay (s : Session) (observer : Observer) (now : Timestamp) (id : EntityId) :
    (∀ settings c snapshot, id ∉ Constraint.movable settings snapshot c →
      (c.attempt observer settings snapshot).geometry.get? id = snapshot.get? id) ∧
    (s.solver.Anchors s.constraints s.geometry id → LeavesAlone s observer now id) :=
  ⟨fun settings c snapshot hid => (c.attempt_confined_movable observer settings snapshot).frame id hid,
    leavesAlone_of_anchors observer now⟩

/-- The first of two lines, when the second is made parallel to it. -/
theorem anchors_stay_parallel :
    let lines : Snapshot := .ofList [(⟨⟨1⟩⟩, .line ⟨0.0, 0.0⟩ ⟨2.0, 0.0⟩), (⟨⟨2⟩⟩, .line ⟨0.0, 1.0⟩ ⟨2.0, 2.0⟩)]
    let s : Session :=
      { solver := ⟨{}⟩, suggestions := {}, series := default, hasStore := true, geometry := lines
        constraints := [.bare 3 .parallel [⟨⟨1⟩⟩, ⟨⟨2⟩⟩]] }
    LeavesAlone s .silent default ⟨⟨1⟩⟩ ∧ ¬ s.solver.Anchors s.constraints s.geometry ⟨⟨2⟩⟩ := by
  intro lines s
  have hfirst : s.solver.Anchors s.constraints s.geometry ⟨⟨1⟩⟩ := by
    unfold Solver.Anchors
    decide
  have hsecond : ¬ s.solver.Anchors s.constraints s.geometry ⟨⟨2⟩⟩ := by
    unfold Solver.Anchors
    decide
  exact ⟨(anchors_stay s .silent default ⟨⟨1⟩⟩).2 hfirst, hsecond⟩

end Drafting.Session
