import Drafting.Proofs.Solving.Pass
import Mathlib.Data.List.Lattice

/-! Independent parts of a drawing.

A turn reads and writes the entities of its constraint only. So of two lists of
constraints that mention no entity in common, shuffled together in any way, each
is solved as if the other were not there (`Solver.run_interleaved`): the pass over
the shuffle agrees, around each part, with the pass over that part alone. For the
same reason two neighbours in the order that mention nothing in common may trade
places (`Solver.run_rearranged`). -/
namespace Drafting

/-- The two mention no entity in common, unless one of them is not solved. -/
def Constraint.Apart (c d : Constraint) : Prop :=
  c.active = true → d.active = true → c.entities.Disjoint d.entities

theorem Constraint.Apart.symm {c d : Constraint} (h : c.Apart d) : d.Apart c :=
  fun hd hc => (h hc hd).symm

/-! ### Turns side by side -/

/-- Snapshots of the same entities that hold the same under some identifiers. -/
structure Snapshot.Matches (ids : List EntityId) (s t : Snapshot) : Prop where
  keys : s.keys = t.keys
  agree : s.AgreeOn ids t

section Turns
variable (observer : Observer) (settings : SolverSettings) {P Q : List EntityId} {s t : Snapshot} {c : Constraint}

/-- A turn inside of `P` has the same outcome wherever the snapshot is the same on `P`. -/
theorem Snapshot.Matches.attempt (h : Matches P s t) (hsub : c.entities ⊆ P) :
    (c.attempt observer settings s).Alike P (c.attempt observer settings t) ∧
      Matches P (c.attempt observer settings s).geometry (c.attempt observer settings t).geometry := by
  have halike := Constraint.attempt_alike observer settings hsub h.keys h.agree
  refine ⟨halike, ?_, halike.geometry⟩
  rw [(c.attempt_confined observer settings s).keys, (c.attempt_confined observer settings t).keys, h.keys]

/-- A turn outside of `Q` is not seen on `Q`. -/
theorem Snapshot.Matches.attempt_left (h : Matches Q s t) (hdisj : c.entities.Disjoint Q) :
    Matches Q (c.attempt observer settings s).geometry t := by
  have hconf := c.attempt_confined observer settings s
  exact ⟨hconf.keys.trans h.keys, (Snapshot.AgreeOn.of_confined hconf hdisj.symm).symm.trans h.agree⟩

theorem attempts_interleaved {as bs l : List Constraint} (h : Interleaved as bs l)
    (hP : ∀ a ∈ as, a.entities ⊆ P) (hQ : ∀ b ∈ bs, b.entities ⊆ Q) (hPQ : P.Disjoint Q)
    {s u v : Snapshot} (hu : s.Matches P u) (hv : s.Matches Q v) :
    (attempts observer settings l s).2.AgreeOn P (attempts observer settings as u).2 ∧
    (attempts observer settings l s).2.AgreeOn Q (attempts observer settings bs v).2 ∧
    ∀ {final finalA finalB : Snapshot}, final.AgreeOn P finalA → final.AgreeOn Q finalB →
      Interleaved (judgements settings finalA (attempts observer settings as u).1)
        (judgements settings finalB (attempts observer settings bs v).1)
        (judgements settings final (attempts observer settings l s).1) := by
  induction h generalizing s u v with
  | nil => exact ⟨hu.agree, hv.agree, fun _ _ => .nil⟩
  | left a _ ih =>
    obtain ⟨ha, has⟩ := List.forall_mem_cons.mp hP
    obtain ⟨halike, hu'⟩ := hu.attempt observer settings ha
    have hv' := hv.attempt_left observer settings (List.disjoint_of_subset_left ha hPQ)
    obtain ⟨hfinalP, hfinalQ, hjudged⟩ := ih has hQ hu' hv'
    refine ⟨hfinalP, hfinalQ, fun hF hG => ?_⟩
    have hverdict := halike.verdict_eq settings (by simpa using ha) hF
    simpa [attempts, judgements, hverdict] using (hjudged hF hG).left _
  | right b _ ih =>
    obtain ⟨hb, hbs⟩ := List.forall_mem_cons.mp hQ
    obtain ⟨halike, hv'⟩ := hv.attempt observer settings hb
    have hu' := hu.attempt_left observer settings (List.disjoint_of_subset_left hb hPQ.symm)
    obtain ⟨hfinalP, hfinalQ, hjudged⟩ := ih hP hbs hu' hv'
    refine ⟨hfinalP, hfinalQ, fun hF hG => ?_⟩
    have hverdict := halike.verdict_eq settings (by simpa using hb) hG
    simpa [attempts, judgements, hverdict] using (hjudged hF hG).right _

end Turns

theorem Solver.run_interleaved (solver : Solver) (observer : Observer) (snapshot : Snapshot)
    {as bs l : List Constraint} (h : Interleaved as bs l) (hapart : ∀ a ∈ as, ∀ b ∈ bs, a.Apart b) :
    Interleaved (solver.results observer as snapshot) (solver.results observer bs snapshot)
      (solver.results observer l snapshot) ∧
    (solver.run observer l snapshot).geometry.AgreeOn (mentioned as) (solver.run observer as snapshot).geometry ∧
    (solver.run observer l snapshot).geometry.AgreeOn (mentioned bs) (solver.run observer bs snapshot).geometry := by
  have hdisj : (mentioned as).Disjoint (mentioned bs) := by
    intro id ha hb
    obtain ⟨a, ha, hactive, hid⟩ := mem_mentioned.mp ha
    obtain ⟨b, hb, hactive', hid'⟩ := mem_mentioned.mp hb
    exact hapart a ha b hb hactive hactive' hid hid'
  obtain ⟨hP, hQ, hjudged⟩ := attempts_interleaved observer solver.settings
    h.solveOrder (fun a => entities_subset_mentioned) (fun b => entities_subset_mentioned) hdisj
    ⟨rfl, .refl _ snapshot⟩ ⟨rfl, .refl _ snapshot⟩
  rw [results_eq, results_eq, results_eq]
  exact ⟨hjudged hP hQ, hP, hQ⟩

/-! ### Other priorities -/

namespace Constraint

/-- The same constraint, more or less important. -/
def withPriority (p : Priority) (c : Constraint) : Constraint := { c with priority := p }

variable (observer : Observer) (settings : SolverSettings) (c : Constraint) (p : Priority) (snapshot : Snapshot)

theorem residual_withPriority : (c.withPriority p).residual snapshot = c.residual snapshot := rfl

theorem step_withPriority : (c.withPriority p).step settings snapshot = c.step settings snapshot := rfl

theorem pursue_withPriority (budget : Nat) (now : Visit) (earlier : List Visit) :
    Course.pursue settings (c.withPriority p) budget now earlier = Course.pursue settings c budget now earlier := by
  induction budget generalizing now earlier with
  | zero => rfl
  | succ budget ih => simp only [Course.pursue, step_withPriority, residual_withPriority, ih]

/-- A turn does not know the priority. -/
theorem attempt_withPriority : (c.withPriority p).attempt observer settings snapshot =
    { c.attempt observer settings snapshot with constraint := c.withPriority p } := by
  have hcourse : Course.of settings (c.withPriority p) snapshot = Course.of settings c snapshot := by
    simp only [Course.of, residual_withPriority, pursue_withPriority]
  have hevents (course : Course) : course.events (c.withPriority p) = course.events c := rfl
  rw [attempt_eq, attempt_eq, hcourse, hevents]
  split <;> rfl

end Constraint

theorem Attempt.verdict_withPriority (settings : SolverSettings) {a : Attempt} {c : Constraint} (final : Snapshot)
    (h : a.constraint = c) (p : Priority) :
    { a with constraint := c.withPriority p }.verdict settings final = a.verdict settings final := by
  simp only [verdict, h, Constraint.residual_withPriority]
  rfl

/-! ### Other orders -/

/-- One order of constraints turned into another: neighbours that mention nothing in common trade
places, and any constraint may get another priority. -/
inductive Rearranged : List Constraint → List Constraint → Prop where
  | nil : Rearranged [] []
  | cons {l l' : List Constraint} (c : Constraint) (p : Priority) :
    Rearranged l l' → Rearranged (c :: l) (c.withPriority p :: l')
  | swap {c d : Constraint} (l : List Constraint) :
    c.entities.Disjoint d.entities → Rearranged (c :: d :: l) (d :: c :: l)
  | trans {l l' l'' : List Constraint} : Rearranged l l' → Rearranged l' l'' → Rearranged l l''

/-- A result but for the priority of its constraint. -/
def unranked (result : Constraint × Solution) : Constraint × Solution := (result.1.withPriority .normal, result.2)

section Swap
variable (observer : Observer) (settings : SolverSettings) (s : Snapshot) {c d : Constraint}

/-- The second of two turns comes out as if it were the first. -/
theorem attempt_after (hdisj : c.entities.Disjoint d.entities) :
    (d.attempt observer settings (c.attempt observer settings s).geometry).Alike d.entities
      (d.attempt observer settings s) :=
  have hmatch : Snapshot.Matches d.entities s s := ⟨rfl, .refl _ s⟩
  ((hmatch.attempt_left observer settings hdisj).attempt observer settings (List.Subset.refl _)).1

/-- Turns that have no entity in common commute. -/
theorem attempt_comm (hdisj : c.entities.Disjoint d.entities) :
    (d.attempt observer settings (c.attempt observer settings s).geometry).geometry =
      (c.attempt observer settings (d.attempt observer settings s).geometry).geometry := by
  have hc := c.attempt_confined observer settings s
  have hd := d.attempt_confined observer settings s
  have hcd := d.attempt_confined observer settings (c.attempt observer settings s).geometry
  have hdc := c.attempt_confined observer settings (d.attempt observer settings s).geometry
  refine Table.ext_get? ((hcd.keys.trans hc.keys).trans (hdc.keys.trans hd.keys).symm) fun id => ?_
  by_cases hid : id ∈ c.entities
  · rw [hcd.frame id (hdisj hid), (attempt_after observer settings s hdisj.symm).geometry id hid]
  · rw [hdc.frame id hid]
    by_cases hid' : id ∈ d.entities
    · exact (attempt_after observer settings s hdisj).geometry id hid'
    · rw [hcd.frame id hid', hc.frame id hid, hd.frame id hid']

end Swap

theorem attempts_rearranged (observer : Observer) (settings : SolverSettings) {l l' : List Constraint}
    (h : Rearranged l l') (s : Snapshot) :
    (attempts observer settings l s).2 = (attempts observer settings l' s).2 ∧
    ∀ final, ((judgements settings final (attempts observer settings l s).1).map unranked).Perm
      ((judgements settings final (attempts observer settings l' s).1).map unranked) := by
  induction h generalizing s with
  | nil => exact ⟨rfl, fun _ => .refl _⟩
  | cons c p _ ih =>
    obtain ⟨hgeometry, hjudged⟩ := ih (c.attempt observer settings s).geometry
    simp only [attempts, c.attempt_withPriority]
    refine ⟨hgeometry, fun final => ?_⟩
    have hverdict := Attempt.verdict_withPriority settings final
      (c.attempt_constraint observer settings s) p
    simp only [judgements, List.map_cons, c.attempt_constraint, hverdict]
    exact (hjudged final).cons _
  | @swap c d l hdisj =>
    simp only [attempts, attempt_comm observer settings s hdisj]
    refine ⟨trivial, fun final => ?_⟩
    have hc := (attempt_after observer settings s hdisj.symm).verdict_eq settings (by simp) (.refl _ final)
    have hd := (attempt_after observer settings s hdisj).verdict_eq settings (by simp) (.refl _ final)
    simp only [judgements, List.map_cons, Constraint.attempt_constraint, hc, hd]
    exact .swap _ _ _
  | trans _ _ ih ih' =>
    exact ⟨(ih s).1.trans (ih' s).1, fun final => ((ih s).2 final).trans ((ih' s).2 final)⟩

namespace Rearranged

variable {l l' : List Constraint}

theorem keep (c : Constraint) (h : Rearranged l l') : Rearranged (c :: l) (c :: l') := h.cons c c.priority

theorem refl (l : List Constraint) : Rearranged l l := by
  induction l with
  | nil => exact .nil
  | cons c rest ih => exact ih.keep c

/-- A constraint may move behind others that mention nothing of it. -/
theorem move {c : Constraint} {front : List Constraint} (back : List Constraint)
    (h : ∀ d ∈ front, c.entities.Disjoint d.entities) : Rearranged (c :: (front ++ back)) (front ++ c :: back) := by
  induction front with
  | nil => exact refl _
  | cons d rest ih =>
    obtain ⟨hd, hrest⟩ := List.forall_mem_cons.mp h
    exact (swap (rest ++ back) hd).trans ((ih hrest).keep d)

/-- Constraints of which no two mention an entity in common may be put in any order. -/
theorem of_perm (hdisj : l.Pairwise fun c d => c.entities.Disjoint d.entities)
    (hperm : (l'.map (Constraint.withPriority .normal)).Perm (l.map (Constraint.withPriority .normal))) :
    Rearranged l l' := by
  induction l generalizing l' with
  | nil =>
    rw [List.map_eq_nil_iff.mp hperm.eq_nil]
    exact .nil
  | cons c rest ih =>
    obtain ⟨hc, hrest⟩ := List.pairwise_cons.mp hdisj
    obtain ⟨c', hmem, hsame⟩ := List.mem_map.mp (hperm.mem_iff.mpr List.mem_cons_self)
    obtain ⟨front, back, rfl⟩ := List.append_of_mem hmem
    have hc' : c.withPriority c'.priority = c' := by
      obtain ⟨⟩ := c'
      simp only [Constraint.withPriority, Constraint.mk.injEq] at hsame
      simp only [Constraint.withPriority, hsame]
    have hothers : ((front ++ back).map (Constraint.withPriority .normal)).Perm
        (rest.map (Constraint.withPriority .normal)) := by
      rw [List.map_append, List.map_cons, hsame] at hperm
      rw [List.map_append]
      exact (List.perm_middle.symm.trans hperm).cons_inv
    have hfirst : Rearranged (c :: rest) (c' :: (front ++ back)) := by
      have hcons := (ih hrest hothers).cons c c'.priority
      rwa [hc'] at hcons
    refine hfirst.trans (move back fun d hd => ?_)
    obtain ⟨e, he, hed⟩ := List.mem_map.mp
      (hothers.mem_iff.mp (List.mem_map_of_mem (List.mem_append_left back hd)))
    have hentities : e.entities = d.entities := by
      simpa only [Constraint.withPriority] using congrArg (·.entities) hed
    rw [← hc', ← hentities]
    exact hc e he

end Rearranged

/-- The orders of lists of which no two constraints are related. -/
theorem Rearranged.of_apart {l l' : List Constraint} (hapart : l.Pairwise Constraint.Apart)
    (hperm : (l'.map (Constraint.withPriority .normal)).Perm (l.map (Constraint.withPriority .normal))) :
    Rearranged (solveOrder l) (solveOrder l') := by
  have hactive : ∀ k : List Constraint, ((solveOrder k).map (Constraint.withPriority .normal)).Perm
      ((k.map (Constraint.withPriority .normal)).filter (·.active)) := by
    intro k
    rw [List.filter_map]
    exact (solveOrder_perm k).map _
  refine of_perm ?_ ((hactive l').trans ((hperm.filter _).trans (hactive l).symm))
  have hfiltered : (l.filter (·.active)).Pairwise fun c d => c.entities.Disjoint d.entities := by
    refine (hapart.filter _).imp_of_mem fun hc hd h => ?_
    exact h (List.of_mem_filter hc) (List.of_mem_filter hd)
  exact ((solveOrder_perm l).pairwise_iff fun h => h.symm).mpr hfiltered

/-! ### Passes -/

namespace Solver

variable (solver : Solver) (observer : Observer) (snapshot : Snapshot)

theorem run_rearranged {l l' : List Constraint} (h : Rearranged (solveOrder l) (solveOrder l')) :
    (solver.run observer l' snapshot).geometry = (solver.run observer l snapshot).geometry ∧
    ((solver.results observer l' snapshot).map unranked).Perm
      ((solver.results observer l snapshot).map unranked) := by
  obtain ⟨hgeometry, hjudged⟩ := attempts_rearranged observer solver.settings h snapshot
  rw [results_eq, results_eq, run_geometry, run_geometry, hgeometry]
  exact ⟨rfl, (hjudged _).symm⟩

/-- **Independent constraints do not influence each other.** Of two lists shuffled into one, whose
solved constraints mention no entity in common, each gets the solutions that it gets alone, and around
each the geometry ends as if the other were not there; whatever neither mentions stays. Nor do order
and priority matter between constraints that mention nothing in common. -/
theorem run_independent {as bs l : List Constraint} (hshuffle : Interleaved as bs l)
    (hapart : ∀ a ∈ as, ∀ b ∈ bs, a.Apart b) :
    Interleaved (solver.results observer as snapshot) (solver.results observer bs snapshot)
      (solver.results observer l snapshot) ∧
    (solver.run observer l snapshot).geometry.keys = snapshot.keys ∧
    (∀ id, (solver.run observer l snapshot).geometry.get? id =
      if id ∈ mentioned as then (solver.run observer as snapshot).geometry.get? id
      else if id ∈ mentioned bs then (solver.run observer bs snapshot).geometry.get? id
      else snapshot.get? id) ∧
    (∀ l', Rearranged (solveOrder l) (solveOrder l') ∨
        l.Pairwise Constraint.Apart ∧
          (l'.map (Constraint.withPriority .normal)).Perm (l.map (Constraint.withPriority .normal)) →
      (solver.run observer l' snapshot).geometry = (solver.run observer l snapshot).geometry ∧
      ((solver.results observer l' snapshot).map unranked).Perm
        ((solver.results observer l snapshot).map unranked)) := by
  obtain ⟨hresults, has, hbs⟩ := solver.run_interleaved observer snapshot hshuffle hapart
  have hconf := solver.run_confined observer l snapshot
  refine ⟨hresults, hconf.keys, fun id => ?_, fun l' h => ?_⟩
  · split
    · exact has id ‹_›
    · split
      · exact hbs id ‹_›
      · refine hconf.frame id fun hid => ?_
        obtain ⟨c, hc, hactive, hid⟩ := mem_mentioned.mp hid
        rcases hshuffle.mem_iff.mp hc with hc | hc
        · exact absurd (mem_mentioned.mpr ⟨c, hc, hactive, hid⟩) ‹id ∉ mentioned as›
        · exact absurd (mem_mentioned.mpr ⟨c, hc, hactive, hid⟩) ‹id ∉ mentioned bs›
  · rcases h with h | ⟨hpairs, hperm⟩
    · exact solver.run_rearranged observer snapshot h
    · exact solver.run_rearranged observer snapshot (.of_apart hpairs hperm)

/-- Two slanted lines. -/
def slanted : Snapshot :=
  .ofList [(⟨⟨1⟩⟩, .line ⟨0.0, 0.0⟩ ⟨2.0, 1.0⟩), (⟨⟨2⟩⟩, .line ⟨5.0, 5.0⟩ ⟨6.0, 8.0⟩)]

/-- One line is made horizontal and the other vertical, in either order. -/
theorem run_independent_slanted :
    let horizontal : Constraint := .bare 1 .horizontal [⟨⟨1⟩⟩]
    let vertical : Constraint := .bare 2 .vertical [⟨⟨2⟩⟩]
    let solver : Solver := ⟨{}⟩
    (solver.run .silent [vertical, horizontal] slanted).geometry.get? ⟨⟨1⟩⟩ = some (.line ⟨0.0, 0.0⟩ ⟨2.0, 0.0⟩) ∧
      (solver.run .silent [horizontal, vertical.withPriority .high] slanted).geometry =
        (solver.run .silent [vertical, horizontal] slanted).geometry := by
  intro horizontal vertical solver
  have hshuffle : Interleaved [horizontal] [vertical] [vertical, horizontal] := .right _ (.left _ .nil)
  have hapart : horizontal.Apart vertical := fun _ _ => by simp [horizontal, vertical, Constraint.bare]
  obtain ⟨_, _, hgeometry, hothers⟩ := run_independent solver .silent slanted hshuffle (by simpa using hapart)
  constructor
  · rw [hgeometry, if_pos (by decide)]
    decide +kernel
  · have hperm : ([horizontal, vertical.withPriority .high].map (Constraint.withPriority .normal)).Perm
        ([vertical, horizontal].map (Constraint.withPriority .normal)) := .swap _ _ _
    exact (hothers _ (.inr ⟨by simpa using hapart.symm, hperm⟩)).1

end Solver

end Drafting
