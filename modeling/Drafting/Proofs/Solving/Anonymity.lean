import Drafting.Proofs.Solving.Independence
import Drafting.Proofs.Solving.Renaming
import Mathlib.Data.List.Perm.Basic

/-! Names of entities carry no meaning.

A pass over a renamed drawing is the renamed pass (`Solver.run_renamed`). Two runs
are followed side by side: a step keeps them renamed copies of each other
(`Constraint.step_renamed`), hence a course does, a turn, and all turns one after
the other. What they measure is the same on both sides, so the same branches are
taken. The restored geometry is the one that a turn began with (`attempt_eq`);
without that the order of the entries would show in it. The report depends on
names through the search for duplicates alone, and there it only asks which names
are equal.

An observer hears the names. The pass over the renamed drawing is compared with one
whose observer is told the new names. -/
namespace Drafting

variable {f : EntityId → EntityId}

/-! ### Events -/

def AdmissionError.renamed (f : EntityId → EntityId) : AdmissionError → AdmissionError
  | .unknownEntity id => .unknownEntity (f id)
  | .repeatedEntity kind id => .repeatedEntity kind (f id)
  | .wrongEntity kind id position expected actual => .wrongEntity kind (f id) position expected actual
  | e => e

def Event.renamed (f : EntityId → EntityId) : Event → Event
  | .failed id kind error => .failed id kind (error.renamed f)
  | .rejected kind error => .rejected kind (error.renamed f)
  | .suggestionRejected kind error => .suggestionRejected kind (error.renamed f)
  | .pairMissing first second => .pairMissing (f first) (f second)
  | .pairConstrained kind first second => .pairConstrained kind (f first) (f second)
  | e => e

/-- The observer of a renamed drawing, told the new names. -/
def Observer.told (f : EntityId → EntityId) (observer : Observer) : Observer := fun e => observer (e.renamed f)

theorem Observer.hear_told (observer : Observer) (events : List Event) :
    observer.hear (events.map (·.renamed f)) =
      (((observer.told f).hear events).1.map (·.renamed f), ((observer.told f).hear events).2) := by
  induction events with
  | nil => rfl
  | cons e rest ih =>
    rw [List.map_cons, hear, hear, ih, told]
    cases observer (e.renamed f) <;> rfl

/-! ### Courses -/

def Ending.renamed (f : EntityId → EntityId) : Ending → Ending
  | .uncorrected e => .uncorrected (e.renamed f)
  | .unmeasured e => .unmeasured (e.renamed f)
  | e => e

theorem Ending.error?_renamed (e : Ending) : (e.renamed f).error? = e.error?.map (·.renamed f) := by
  cases e <;> rfl

namespace Course

variable {settings : SolverSettings} {c : Constraint}

/-- Courses that measure the same, and end alike in renamed geometries. -/
structure Renamed (f : EntityId → EntityId) (a b : Course) : Prop where
  residuals : b.visits.map Visit.residual = a.visits.map Visit.residual
  ending : b.ending = a.ending.renamed f
  geometry : a.geometry.Renamed f b.geometry

theorem Renamed.steps_eq {a b : Course} (h : Renamed f a b) : b.steps = a.steps := by
  have hlength : b.visits.length = a.visits.length := by simpa using congrArg List.length h.residuals
  rw [steps, steps, h.ending, hlength]
  cases a.ending <;> rfl

theorem Renamed.events_eq {a b : Course} (h : Renamed f a b) :
    b.events (c.renamed f) = (a.events c).map (·.renamed f) := by
  have hsteps := h.steps_eq
  obtain ⟨visits, ending, geometry⟩ := a
  obtain ⟨visits', ending', geometry'⟩ := b
  obtain ⟨hresiduals, rfl : ending' = ending.renamed f, _⟩ := h
  unfold events
  rw [hsteps]
  rcases visits with _ | ⟨last, _ | ⟨before, rest⟩⟩ <;> rcases visits' with _ | ⟨last', _ | ⟨before', rest'⟩⟩ <;>
    simp only [List.map_nil, List.map_cons, List.cons.injEq, reduceCtorEq, and_false] at hresiduals
  · cases ending <;> rfl
  · cases ending <;> simp only [Ending.renamed, hresiduals] <;> rfl
  · cases ending <;> simp only [Ending.renamed, hresiduals] <;> rfl

section Injective
variable (hf : Function.Injective f)
include hf

theorem pursue_renamed (budget : Nat) {now now' : Visit} {earlier earlier' : List Visit}
    (hgeometry : now.geometry.Renamed f now'.geometry) (hresidual : now'.residual = now.residual)
    (hearlier : earlier'.map Visit.residual = earlier.map Visit.residual) :
    Renamed f (pursue settings c budget now earlier) (pursue settings (c.renamed f) budget now' earlier') := by
  induction budget generalizing now now' earlier earlier' with
  | zero =>
    refine ⟨?_, ?_, hgeometry⟩
    · simp only [pursue, List.map_cons, hresidual, hearlier]
    · simp only [pursue, hresidual]
      split <;> rfl
  | succ budget ih =>
    have hvisits : (now' :: earlier').map Visit.residual = (now :: earlier).map Visit.residual := by
      rw [List.map_cons, List.map_cons, hresidual, hearlier]
    unfold pursue
    rw [hresidual]
    by_cases hreached : settings.tolerance ≤ now.residual
    · rw [if_pos hreached, if_pos hreached]
      obtain ⟨e, hs, ht⟩ | ⟨s, t, hs, ht, hnext⟩ := c.step_renamed hgeometry hf settings
      · rw [hs, ht]
        exact ⟨hvisits, rfl, hgeometry⟩
      · rw [hs, ht]
        simp only [c.residual_renamed hnext]
        cases c.residual s with
        | error e => exact ⟨hvisits, rfl, hnext⟩
        | ok residual =>
          simp only [carried]
          split
          · exact ⟨congrArg (residual :: ·) hvisits, rfl, hnext⟩
          · exact ih hnext rfl hvisits
    · rw [if_neg hreached, if_neg hreached]
      exact ⟨hvisits, rfl, hgeometry⟩

/-- A course does not know what the entities are called. -/
theorem of_renamed (settings : SolverSettings) (c : Constraint) {s t : Snapshot} (h : s.Renamed f t) :
    Renamed f (of settings c s) (of settings (c.renamed f) t) := by
  unfold of
  rw [c.residual_renamed h]
  cases c.residual s with
  | error e => exact ⟨rfl, rfl, h⟩
  | ok residual => exact pursue_renamed hf _ h rfl rfl

end Injective

end Course

/-! ### Turns -/

/-- Outcomes that differ in the names of entities only. -/
structure Attempt.Renamed (f : EntityId → EntityId) (a b : Attempt) : Prop where
  constraint : b.constraint = a.constraint.renamed f
  updates : a.updates.Renamed f b.updates
  iterations : b.iterations = a.iterations
  error : b.error = a.error.map (·.renamed f)
  geometry : a.geometry.Renamed f b.geometry
  log : b.log = a.log.map (·.renamed f)

/-- Solutions that differ in the names of entities only. -/
structure Solution.Renamed (f : EntityId → EntityId) (a b : Solution) : Prop where
  constraint : b.constraint = a.constraint
  satisfied : b.satisfied = a.satisfied
  updates : a.updates.Renamed f b.updates
  iterations : b.iterations = a.iterations
  residual : b.residual = a.residual
  error : b.error = a.error.map (·.renamed f)

section Turns
variable (hf : Function.Injective f) (observer : Observer) (settings : SolverSettings) {s t : Snapshot}
include hf

/-- **A turn does not know what the entities are called.** -/
theorem Constraint.attempt_renamed (c : Constraint) (h : s.Renamed f t) :
    (c.attempt (observer.told f) settings s).Renamed f ((c.renamed f).attempt observer settings t) := by
  have hcourse := Course.of_renamed hf settings c h
  rw [attempt_eq, attempt_eq, hcourse.events_eq, observer.hear_told, hcourse.ending, Ending.error?_renamed,
    hcourse.steps_eq]
  rcases (observer.told f).hear ((Course.of settings c s).events c) with ⟨heard, refusal⟩
  cases refusal with
  | some reason => exact ⟨rfl, .empty f, rfl, rfl, h, by rw [List.map_append]; rfl⟩
  | none =>
    cases (Course.of settings c s).ending.error? with
    | some e => exact ⟨rfl, .empty f, rfl, rfl, h, rfl⟩
    | none =>
      exact ⟨rfl, Snapshot.changes_renamed (h.restrict hf c.entities) hcourse.geometry, rfl, rfl,
        hcourse.geometry, rfl⟩

theorem attempts_renamed (l : List Constraint) (h : s.Renamed f t) :
    List.Forall₂ (Attempt.Renamed f) (attempts (observer.told f) settings l s).1
        (attempts observer settings (l.map (·.renamed f)) t).1 ∧
      (attempts (observer.told f) settings l s).2.Renamed f
        (attempts observer settings (l.map (·.renamed f)) t).2 := by
  induction l generalizing s t with
  | nil => exact ⟨.nil, h⟩
  | cons c rest ih =>
    have hfirst := c.attempt_renamed hf observer settings h
    obtain ⟨hothers, hfinal⟩ := ih hfirst.geometry
    exact ⟨.cons hfirst hothers, hfinal⟩

end Turns

theorem logs_renamed {turns turns' : List Attempt} (h : List.Forall₂ (Attempt.Renamed f) turns turns') :
    turns'.flatMap (·.log) = (turns.flatMap (·.log)).map (·.renamed f) := by
  induction h with
  | nil => rfl
  | cons hfirst _ ih => rw [List.flatMap_cons, List.flatMap_cons, List.map_append, hfirst.log, ih]

theorem Attempt.Renamed.verdict {settings : SolverSettings} {a b : Attempt} {final final' : Snapshot}
    (h : a.Renamed f b) (hfinal : final.Renamed f final') :
    (a.verdict settings final).Renamed f (b.verdict settings final') := by
  unfold Attempt.verdict
  rw [h.error, h.constraint, h.iterations, a.constraint.residual_renamed hfinal]
  cases a.error with
  | some e => exact ⟨rfl, rfl, h.updates, rfl, rfl, rfl⟩
  | none =>
    cases a.constraint.residual final with
    | error e => exact ⟨rfl, rfl, h.updates, rfl, rfl, rfl⟩
    | ok r => exact ⟨rfl, rfl, h.updates, rfl, rfl, rfl⟩

/-! ### The order and the report -/

theorem insertByPriority_renamed (c : Constraint) (l : List Constraint) :
    insertByPriority (c.renamed f) (l.map (·.renamed f)) = (insertByPriority c l).map (·.renamed f) := by
  induction l with
  | nil => rfl
  | cons d rest ih =>
    simp only [List.map_cons, insertByPriority, ih]
    by_cases hlt : c.priority < d.priority
    · rw [if_pos hlt, List.map_cons]
      exact if_pos hlt
    · rw [if_neg hlt, List.map_cons, List.map_cons]
      exact if_neg hlt

theorem solveOrder_renamed (l : List Constraint) :
    solveOrder (l.map (·.renamed f)) = (solveOrder l).map (·.renamed f) := by
  induction l with
  | nil => rfl
  | cons c rest ih =>
    have hactive : (c.renamed f).active = c.active := rfl
    rw [List.map_cons, solveOrder_cons, solveOrder_cons, ih, hactive]
    split
    · exact insertByPriority_renamed c _
    · rfl

/-- Whether two constraints repeat each other depends on which names are equal. -/
theorem Constraint.duplicates_renamed (hf : Function.Injective f) (c d : Constraint) :
    (c.renamed f).duplicates (d.renamed f) = c.duplicates d := by
  have hperm : (c.entities.map f).isPerm (d.entities.map f) = c.entities.isPerm d.entities := by
    rw [Bool.eq_iff_iff, List.isPerm_iff, List.isPerm_iff, List.map_perm_map_iff hf]
  show (_ && (c.entities.map f).isPerm (d.entities.map f)) = (_ && c.entities.isPerm d.entities)
  rw [hperm]
  rfl

theorem Redundancy.among_renamed (hf : Function.Injective f) (earlier l : List Constraint) :
    among (earlier.map (·.renamed f)) (l.map (·.renamed f)) = among earlier l := by
  induction l generalizing earlier with
  | nil => rfl
  | cons c rest ih =>
    have hrest := ih (earlier ++ [c])
    rw [List.map_append, List.map_singleton] at hrest
    have hfind : (earlier.map (·.renamed f)).find? (·.duplicates (c.renamed f)) =
        (earlier.find? (·.duplicates c)).map (·.renamed f) := by
      rw [List.find?_map]
      simp only [Function.comp_def, Constraint.duplicates_renamed hf]
    simp only [List.map_cons, among, hfind, hrest]
    cases earlier.find? (·.duplicates c) <;> rfl

section Figures
variable {solutions solutions' : List Solution} (h : List.Forall₂ (Solution.Renamed f) solutions solutions')
include h

theorem satisfied_renamed :
    (solutions'.filter (·.satisfied)).length = (solutions.filter (·.satisfied)).length := by
  induction h with
  | nil => rfl
  | cons hs _ ih =>
    simp only [List.filter_cons, hs.satisfied]
    split
    · simp only [List.length_cons, ih]
    · exact ih

theorem iterations_renamed (n : UInt32) :
    solutions'.foldl (fun total s => total + s.iterations) n =
      solutions.foldl (fun total s => total + s.iterations) n := by
  induction h generalizing n with
  | nil => rfl
  | cons hs _ ih => rw [List.foldl_cons, List.foldl_cons, hs.iterations, ih]

theorem residuals_renamed :
    (solutions'.filter (·.error.isNone)).map (·.residual) =
      (solutions.filter (·.error.isNone)).map (·.residual) := by
  induction h with
  | nil => rfl
  | cons hs _ ih =>
    simp only [List.filter_cons, hs.error, Option.isNone_map]
    split
    · simp only [List.map_cons, hs.residual, ih]
    · exact ih

/-- The report names no entity. -/
theorem Report.of_renamed (hf : Function.Injective f) (l : List Constraint) :
    Report.of (l.map (·.renamed f)) solutions' = Report.of l solutions := by
  have hredundant := Redundancy.among_renamed hf [] l
  rw [List.map_nil] at hredundant
  simp only [Report.of, h.length_eq, satisfied_renamed h, iterations_renamed h, residuals_renamed h, hredundant]

end Figures

/-! ### Passes -/

namespace Solver

variable (solver : Solver) (observer : Observer) (l : List Constraint)

/-- **The pass over a renamed drawing is the renamed pass.** Its solutions are the same but for the
names in updates and errors, its report is the same, it leaves the renamed geometry, and its log tells
the same of the renamed entities. -/
theorem run_renamed (hf : Function.Injective f) {s t : Snapshot} (h : s.Renamed f t) :
    let original := solver.run (observer.told f) l s
    let image := solver.run observer (l.map (·.renamed f)) t
    List.Forall₂ (Solution.Renamed f) original.solutions image.solutions ∧
      image.report = original.report ∧
      original.geometry.Renamed f image.geometry ∧
      image.log = original.log.map (·.renamed f) := by
  intro original image
  obtain ⟨hturns, hfinal⟩ := attempts_renamed hf observer solver.settings (solveOrder l) h
  rw [← solveOrder_renamed] at hturns hfinal
  have hsolutions : List.Forall₂ (Solution.Renamed f) original.solutions image.solutions :=
    List.forall₂_map_left_iff.mpr (List.forall₂_map_right_iff.mpr (hturns.imp fun a b hab => hab.verdict hfinal))
  have hreport : image.report = original.report := by
    have hof := Report.of_renamed hsolutions hf (solveOrder l)
    rwa [← solveOrder_renamed] at hof
  refine ⟨hsolutions, hreport, hfinal, ?_⟩
  show _ ++ [Event.passDone image.report.satisfiedCount image.report.constraintCount image.report.totalIterations] =
    (_ ++ [_]).map _
  rw [hreport, List.map_append, logs_renamed hturns]
  rfl

/-- One of the slanted lines is made horizontal, under whatever name. -/
theorem run_renamed_slanted :
    let next : EntityId → EntityId := fun id => ⟨⟨id.uuid.bits + 1⟩⟩
    ∃ (hnext : Function.Injective next) (image : Pass),
      image = run ⟨{}⟩ .silent [.bare 1 .horizontal [⟨⟨2⟩⟩]] (slanted.rekeyed hnext) ∧
      image.geometry.get? ⟨⟨2⟩⟩ = some (.line ⟨0.0, 0.0⟩ ⟨2.0, 0.0⟩) ∧
      image.report.satisfiedCount = 1 := by
  intro next
  have hnext : Function.Injective next := by
    intro ⟨⟨a⟩⟩ ⟨⟨b⟩⟩ h
    simpa [next] using h
  obtain ⟨_, hreport, hgeometry, _⟩ :=
    run_renamed ⟨{}⟩ .silent [.bare 1 .horizontal [⟨⟨1⟩⟩]] hnext (Table.renamed_rekeyed hnext slanted)
  refine ⟨hnext, _, rfl, ?_, ?_⟩
  · exact (hgeometry.image ⟨⟨1⟩⟩).trans (by decide +kernel)
  · exact (congrArg Report.satisfiedCount hreport).trans (by decide +kernel)

end Solver

end Drafting
