import Drafting.Admission
import Drafting.Proofs.Solving.Duplicates

/-! What a report of redundancy is worth.

A report lists a constraint as redundant if one ahead of it asks the same of the
same entities, in whatever order (`Redundancy.about_of_mem`). That one can then be
told apart from it by the verdicts for two reasons. The order may matter: of two
patterns over one row of points, one may hold and the other not
(`Solver.not_alike_of_redundant`). And each has a turn of its own, which may fail
for one of them only. Where neither is the case, the verdicts are alike
(`Solver.run_redundant`). -/
namespace Drafting

/-- What an entry on redundancy is about: two constraints of a list, with what stands ahead of them,
between them and behind them. -/
structure Redundancy.About (r : Redundancy) (l ahead : List Constraint) (first : Constraint)
    (between : List Constraint) (later : Constraint) (behind : List Constraint) : Prop where
  places : l = ahead ++ first :: (between ++ later :: behind)
  duplicates : first.duplicates later = true
  original : r.duplicates = first.id
  repeated : r.constraint = later.id

namespace Redundancy

theorem exists_of_mem_among {earlier l : List Constraint} {r : Redundancy} (h : r ∈ among earlier l) :
    ∃ ahead first later behind, l = ahead ++ later :: behind ∧
      (earlier ++ ahead).find? (·.duplicates later) = some first ∧
      r.duplicates = first.id ∧ r.constraint = later.id := by
  induction l generalizing earlier with
  | nil => cases h
  | cons c rest ih =>
    have hrest (h : r ∈ among (earlier ++ [c]) rest) : ∃ ahead first later behind,
        c :: rest = ahead ++ later :: behind ∧ (earlier ++ ahead).find? (·.duplicates later) = some first ∧
        r.duplicates = first.id ∧ r.constraint = later.id := by
      obtain ⟨ahead, first, later, behind, rfl, hfind, hids⟩ := ih h
      exact ⟨c :: ahead, first, later, behind, rfl, by simpa using hfind, hids⟩
    rw [among] at h
    cases hfind : earlier.find? (·.duplicates c) with
    | none =>
      rw [hfind] at h
      exact hrest h
    | some first =>
      rw [hfind] at h
      rcases List.mem_cons.mp h with rfl | h
      · exact ⟨[], first, c, rest, rfl, by simpa using hfind, rfl, rfl⟩
      · exact hrest h

/-- An entry names two constraints of the list, the original first. -/
theorem about_of_mem {l : List Constraint} {r : Redundancy} (h : r ∈ among [] l) :
    ∃ ahead first between later behind, r.About l ahead first between later behind := by
  obtain ⟨ahead, first, later, behind, rfl, hfind, hids⟩ := exists_of_mem_among h
  rw [List.nil_append] at hfind
  have hduplicates : first.duplicates later = true := List.find?_some (p := fun c : Constraint => c.duplicates later) hfind
  obtain ⟨front, between, rfl⟩ := List.append_of_mem (List.mem_of_find?_eq_some hfind)
  exact ⟨front, first, between, later, behind, by simp, hduplicates, hids.1, hids.2⟩

end Redundancy

namespace Solver

variable (solver : Solver) (observer : Observer) (snapshot : Snapshot)

/-- The verdict at a place of a pass: the turn there did not fail, and the constraint holds in the end. -/
theorem run_satisfied {l ahead behind : List Constraint} {c : Constraint} (h : solveOrder l = ahead ++ c :: behind) :
    let pass := solver.run observer l snapshot
    ∃ solution, pass.solutions[ahead.length]? = some solution ∧ solution.constraint = c.id ∧
      (solution.satisfied = true ↔
        (solver.turnAfter observer snapshot ahead c).error = none ∧ c.Holds solver.settings pass.geometry) := by
  intro pass
  have htruthful := (solver.turnAfter observer snapshot ahead c).verdict_truthful solver.settings pass.geometry
  refine ⟨_, (solver.run_place observer snapshot h).1, ?_, ?_⟩
  · rw [htruthful.constraint, turnAfter_constraint]
  · rw [htruthful.satisfied_iff_holds, turnAfter_constraint]

/-- **A redundant constraint has the verdict of the one that it repeats**, if they give their entities the
same roles, and if the turns of both end well or the turns of both fail. -/
theorem run_redundant (l : List Constraint) {r : Redundancy}
    (h : r ∈ (solver.run observer l snapshot).report.redundant) :
    let pass := solver.run observer l snapshot
    (∃ ahead first between later behind, r.About (solveOrder l) ahead first between later behind) ∧
      ∀ ahead first between later behind, r.About (solveOrder l) ahead first between later behind →
        ∃ original repeated, pass.solutions[ahead.length]? = some original ∧ original.constraint = r.duplicates ∧
          pass.solutions[(ahead ++ first :: between).length]? = some repeated ∧ repeated.constraint = r.constraint ∧
          (first.SameRoles later →
            ((solver.turnAfter observer snapshot ahead first).error = none ↔
              (solver.turnAfter observer snapshot (ahead ++ first :: between) later).error = none) →
            original.satisfied = repeated.satisfied) := by
  intro pass
  refine ⟨Redundancy.about_of_mem h, fun ahead first between later behind habout => ?_⟩
  have hlater : solveOrder l = (ahead ++ first :: between) ++ later :: behind := by simpa using habout.places
  obtain ⟨original, horiginal, hid, hverdict⟩ := solver.run_satisfied observer snapshot habout.places
  obtain ⟨repeated, hrepeated, hid', hverdict'⟩ := solver.run_satisfied observer snapshot hlater
  refine ⟨original, repeated, horiginal, hid.trans habout.original.symm, hrepeated,
    hid'.trans habout.repeated.symm, fun hroles hturns => ?_⟩
  rw [Bool.eq_iff_iff, hverdict, hverdict', hturns, Constraint.holds_congr habout.duplicates hroles]

/-- Two circles are to be concentric, and the other way round, and one of them is pulled away in the end.
Neither of the two constraints is satisfied. -/
theorem run_redundant_circles :
    let circles : Snapshot := .ofList [(⟨⟨1⟩⟩, .circle ⟨0.0, 0.0⟩ 1.0), (⟨⟨2⟩⟩, .circle ⟨3.0, 4.0⟩ 2.0)]
    let first : Constraint := .bare 1 .concentric [⟨⟨1⟩⟩, ⟨⟨2⟩⟩]
    let later : Constraint := .bare 2 .concentric [⟨⟨2⟩⟩, ⟨⟨1⟩⟩]
    let away : Constraint :=
      { Constraint.bare 3 .fix [⟨⟨2⟩⟩] with priority := .low, parameters := .ofList [(.point, .point ⟨9.0, 9.0⟩)] }
    let pass := run ⟨{}⟩ .silent [first, away, later] circles
    let entry : Redundancy := ⟨later.id, first.id, "Exact duplicate of CONCENTRIC constraint " ++ first.id.text⟩
    entry ∈ pass.report.redundant ∧ ∃ original repeated, pass.solutions[0]? = some original ∧
      pass.solutions[1]? = some repeated ∧ original.satisfied = repeated.satisfied := by
  intro circles first later away pass entry
  have hmem : entry ∈ pass.report.redundant := by decide +kernel
  have habout : entry.About (solveOrder [first, away, later]) [] first [] later [away] :=
    ⟨by decide +kernel, by decide +kernel, rfl, rfl⟩
  obtain ⟨original, repeated, horiginal, _, hrepeated, _, hverdicts⟩ :=
    (run_redundant ⟨{}⟩ .silent circles _ hmem).2 _ _ _ _ _ habout
  exact ⟨hmem, original, repeated, horiginal, hrepeated, hverdicts (by decide +kernel) (by decide +kernel)⟩

/-- A pattern over three points in a row, and the same pattern with two of them in the other order. Both are
admitted. The second moves the points, holds, and is listed as an exact duplicate of the first, which does
not hold. -/
theorem not_alike_of_redundant :
    let points : Snapshot :=
      .ofList [(⟨⟨1⟩⟩, .point ⟨0.0, 0.0⟩), (⟨⟨2⟩⟩, .point ⟨1.0, 0.0⟩), (⟨⟨3⟩⟩, .point ⟨2.0, 0.0⟩)]
    let row (number : BitVec 128) (entities : List EntityId) : Constraint :=
      { Constraint.bare number .pattern entities with parameters := .ofList [(.offset, .vector ⟨1.0, 0.0⟩)] }
    let first := row 1 [⟨⟨1⟩⟩, ⟨⟨2⟩⟩, ⟨⟨3⟩⟩]
    let later := row 2 [⟨⟨1⟩⟩, ⟨⟨3⟩⟩, ⟨⟨2⟩⟩]
    let pass := run ⟨{}⟩ .silent [first, later] points
    (∀ c ∈ [first, later], Admission.check points c.kind c.entities c.parameters = .ok ()) ∧
      (∃ r ∈ pass.report.redundant, r.constraint = later.id ∧ r.duplicates = first.id) ∧
      pass.solutions.map (fun s => (s.constraint, s.satisfied)) = [(first.id, false), (later.id, true)] := by
  intro points row first later pass
  exact ⟨by decide +kernel, by decide +kernel, by decide +kernel⟩

end Solver

end Drafting
