import Drafting.Proofs.Solving.Kinds
import Drafting.Proofs.Solving.Pass

/-! What a solution blames.

Whether a constraint fits is a matter of kinds, and no turn of a pass changes a
kind. So the geometry with which a pass begins decides about every constraint: one
that does not fit there is refused in its turn for an entity, and one that fits
can only fail for a line without length, in its turn or in the final sweep
(`verdicts_blame`). The one other way to end with an error is that an observer
refused to hear of the turn. -/
namespace Drafting

/-- The error that a solution may show: an entity is blamed if the constraint does not fit, and
otherwise nothing but a line without length. -/
structure Constraint.Blames (c : Constraint) (snapshot : Snapshot) (error : Option SolveError) : Prop where
  length : c.Fits snapshot → ∀ e, error = some e → e.blamesLength = true
  entity : ¬ c.Fits snapshot → ∃ e, error = some e ∧ e.blamesEntity = true

/-- The error is an interruption, and it has its reason from an event that the observer refused. -/
def Observer.Interrupted (observer : Observer) (error : Option SolveError) : Prop :=
  ∃ event reason, observer event = some reason ∧ error = some (.internal reason)

namespace Constraint.Blames

variable {c : Constraint} {snapshot : Snapshot} {error : Option SolveError}

theorem entity_iff (h : c.Blames snapshot error) :
    (∃ e, error = some e ∧ e.blamesEntity = true) ↔ ¬ c.Fits snapshot := by
  refine ⟨fun ⟨e, he, hentity⟩ hfits => ?_, h.entity⟩
  have hlength := h.length hfits e he
  cases e <;> simp [SolveError.blamesEntity, SolveError.blamesLength] at hentity hlength

theorem entity_or_length (h : c.Blames snapshot error) {e : SolveError} (he : error = some e) :
    e.blamesEntity = true ∨ e.blamesLength = true := by
  by_cases hfits : c.Fits snapshot
  · exact .inr (h.length hfits e he)
  · obtain ⟨e', he', hentity⟩ := h.entity hfits
    rw [he, Option.some.injEq] at he'
    exact .inl (he' ▸ hentity)

end Constraint.Blames

/-! ### Kinds stay -/

namespace Constraint

variable {c : Constraint} {settings : SolverSettings} {snapshot : Snapshot}

theorem fits_congr {other : Snapshot} (h : ∀ id, other.kind? id = snapshot.kind? id) :
    c.Fits other ↔ c.Fits snapshot := by
  unfold Fits
  rw [Admission.kinds_congr h]

theorem blames_congr {other : Snapshot} (h : ∀ id, other.kind? id = snapshot.kind? id) {error : Option SolveError} :
    c.Blames other error ↔ c.Blames snapshot error := by
  have hfits := fits_congr (c := c) h
  constructor
  · exact fun hb => ⟨fun hf => hb.length (hfits.mpr hf), fun hn => hb.entity (mt hfits.mp hn)⟩
  · exact fun hb => ⟨fun hf => hb.length (hfits.mp hf), fun hn => hb.entity (mt hfits.mpr hn)⟩

/-! ### Residuals and steps -/

theorem residual_blames (hs : c.Sound) (h : ¬ c.Fits snapshot) :
    ∃ e, c.residual snapshot = .error e ∧ e.blamesEntity = true := by
  obtain ⟨e, he, hblame⟩ := (resolves_relation? hs snapshot).2 h
  refine ⟨e, ?_, hblame⟩
  rw [residual, he]
  rfl

end Constraint

/-! ### Turns -/

section Turns
variable {c : Constraint} {settings : SolverSettings}

theorem Course.pursue_blamesLength (budget : Nat) {now : Visit} (earlier : List Visit) (h : c.HasRelation now.geometry)
    {e : SolveError} (he : (pursue settings c budget now earlier).ending.error? = some e) : e.blamesLength = true := by
  induction budget generalizing now earlier with
  | zero =>
    unfold pursue at he
    split at he <;> cases he
  | succ budget ih =>
    unfold pursue at he
    split at he
    · split at he
      · cases he
        exact Constraint.blamesLength_step h ‹_›
      · rename_i geometry hstep
        have hnext : c.HasRelation geometry := (Constraint.hasRelation_congr (Constraint.step_confined hstep).kind?_eq).mpr h
        split at he
        · cases he
          exact Constraint.blamesLength_residual hnext ‹_›
        · split at he
          · cases he
          · exact ih _ hnext he
    · cases he

/-- A course that starts from a relation can only fail for a line without length. -/
theorem Course.of_blamesLength {snapshot : Snapshot} (h : c.HasRelation snapshot) {e : SolveError}
    (he : (of settings c snapshot).ending.error? = some e) : e.blamesLength = true := by
  unfold of at he
  split at he
  · cases he
    exact Constraint.blamesLength_residual h ‹_›
  · exact pursue_blamesLength _ _ h he

theorem Course.of_blames (settings : SolverSettings) (hs : c.Sound) (snapshot : Snapshot) :
    c.Blames snapshot (of settings c snapshot).ending.error? := by
  refine ⟨fun h e he => of_blamesLength ((Constraint.resolves_relation? hs snapshot).1 h) he, fun h => ?_⟩
  obtain ⟨e, he, hblame⟩ := Constraint.residual_blames hs h
  refine ⟨e, ?_, hblame⟩
  simp only [of, he]
  rfl

/-- A turn ends as its course does, if it is not interrupted; and then it tells of no step. -/
theorem Constraint.attempt_error (observer : Observer) (settings : SolverSettings) (c : Constraint) (snapshot : Snapshot) :
    let own := c.attempt observer settings snapshot
    (observer.Interrupted own.error ∧ own.iterations = 0) ∨
      own.error = (Course.of settings c snapshot).ending.error? := by
  intro own
  simp only [own]
  rw [attempt_eq]
  split
  · rename_i heard reason hheard
    obtain ⟨event, _, hrefusal⟩ := Observer.refused_of_hear (congrArg Prod.snd hheard)
    exact .inl ⟨⟨event, reason, hrefusal, rfl⟩, rfl⟩
  · rename_i hending
    exact .inr hending.symm
  · rename_i hending
    exact .inr hending.symm

/-- A turn without error is judged by the final geometry, and the kinds there are the same. -/
theorem Attempt.verdict_blames (settings : SolverSettings) {a : Attempt} {snapshot final : Snapshot}
    (ha : a.constraint = c) (hs : c.Sound) (h : c.Blames snapshot a.error)
    (hfinal : ∀ id, final.kind? id = snapshot.kind? id) :
    c.Blames snapshot (a.verdict settings final).error := by
  subst ha
  cases herror : a.error with
  | some e =>
    rw [Attempt.verdict_of_error herror, ← herror]
    exact h
  | none =>
    refine ⟨fun hfits e he => ?_, fun hfits => ?_⟩
    · simp only [verdict, herror] at he
      split at he
      · cases he
        have hfinds := (Constraint.resolves_relation? hs final).1 ((Constraint.fits_congr hfinal).mpr hfits)
        exact Constraint.blamesLength_residual hfinds ‹_›
      · cases he
    · obtain ⟨e, he, _⟩ := h.entity hfits
      rw [herror] at he
      cases he

/-- An interruption outlives the final sweep. -/
theorem Attempt.verdict_interrupted {observer : Observer} {a : Attempt} (h : observer.Interrupted a.error)
    (settings : SolverSettings) (final : Snapshot) : observer.Interrupted (a.verdict settings final).error := by
  obtain ⟨event, reason, hrefusal, herror⟩ := h
  refine ⟨event, reason, hrefusal, ?_⟩
  rw [verdict_of_error herror]

/-- The solutions of a row of turns, each next to its constraint. -/
theorem verdicts_blame (observer : Observer) {l : List Constraint} (hs : ∀ c ∈ l, c.Sound) {start now final : Snapshot}
    (hnow : ∀ id, now.kind? id = start.kind? id) (hfinal : ∀ id, final.kind? id = start.kind? id) :
    List.Forall₂ (fun c solution => solution.constraint = c.id ∧
        (observer.Interrupted solution.error ∨ c.Blames start solution.error)) l
      ((attempts observer settings l now).1.map (·.verdict settings final)) := by
  induction l generalizing now with
  | nil => exact .nil
  | cons c rest ih =>
    obtain ⟨hc, hrest⟩ := List.forall_mem_cons.mp hs
    have hconf := c.attempt_confined observer settings now
    refine .cons ⟨?_, ?_⟩ (ih hrest fun id => (hconf.kind?_eq id).trans (hnow id))
    · rw [Attempt.verdict_constraint, Constraint.attempt_constraint]
    · rcases c.attempt_error observer settings now with ⟨hinterrupted, _⟩ | hended
      · exact .inl (Attempt.verdict_interrupted hinterrupted settings final)
      · have hturn := (Constraint.blames_congr hnow).mp (Course.of_blames settings hc now)
        rw [← hended] at hturn
        have hown : (c.attempt observer settings now).constraint = c := Constraint.attempt_constraint ..
        exact .inr (Attempt.verdict_blames settings hown hc hturn hfinal)

end Turns

end Drafting
