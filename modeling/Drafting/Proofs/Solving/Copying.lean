import Drafting.Proofs.Entity.Finite
import Drafting.Proofs.Number.Difference
import Drafting.Proofs.Settings
import Drafting.Proofs.Solving.Correctable
import Drafting.Proofs.Solving.Finite
import Drafting.Proofs.Solving.Progress
import Drafting.Proofs.Solving.Resolution
import Drafting.Proofs.Solving.Rest
import Drafting.Proofs.Solving.Verdict

/-! Corrections that copy.

Four kinds of constraints are corrected by copying one number: a horizontal or
vertical line takes a coordinate of its end from its start, and a radius is taken
from the constraint or from another circle or arc (`Constraint.Copy`). The residual of
each of them is the size of a difference between what is copied and what it is copied
to. Behind the step this is a number minus itself, which is zero exactly if the number
is finite. So a course that has to make a step at all makes one and settles
(`Course.of_exact`), however large the first residual is, and a pass over nothing but
such a constraint satisfies it (`Solver.run_copying`). -/
namespace Drafting

open Number

/-- The kinds whose correction copies a number. -/
def ConstraintKind.copies : ConstraintKind → Bool
  | .horizontal | .vertical | .radius | .equalRadius => true
  | _ => false

/-- What a copy changes: the entity, and what it is afterwards. -/
inductive Constraint.Copy (c : Constraint) (before : Snapshot) : EntityId → Entity → Prop where
  /-- The end of a line comes to the height of its start. -/
  | horizontal {id : EntityId} {start stop : Point} (kind : c.kind = .horizontal) (place : c.entities = [id])
      (found : before.get? id = some (.line start stop)) : c.Copy before id (.line start ⟨stop.x, start.y⟩)
  /-- The end of a line comes above or below its start. -/
  | vertical {id : EntityId} {start stop : Point} (kind : c.kind = .vertical) (place : c.entities = [id])
      (found : before.get? id = some (.line start stop)) : c.Copy before id (.line start ⟨start.x, stop.y⟩)
  /-- A circle or an arc has the radius that the constraint asks for. -/
  | radius {id : EntityId} {e : Entity} {center : Point} {old target : Float} (kind : c.kind = .radius)
      (place : c.entities = [id]) (found : before.get? id = some e) (round : e.circular? = some (center, old))
      (value : c.parameters.number? .radius = some target) : c.Copy before id (e.withRadius target)
  /-- A circle or an arc has the radius of another. -/
  | equalRadius {first id : EntityId} {e : Entity} {center : Point} {old r : Float} (kind : c.kind = .equalRadius)
      (places : c.entities = [first, id]) (distinct : first ≠ id) (found : before.get? id = some e)
      (round : e.circular? = some (center, old)) (original : before.radius? first = some r) :
      c.Copy before id (e.withRadius r)

/-! ### One exact step -/

namespace Course

variable {settings : SolverSettings} {c : Constraint} {snapshot next : Snapshot} {r : Float}

/-- A step that leaves nothing of the residual is the only one. -/
theorem of_exact (hcheck : settings.check = .ok ()) (hresidual : c.residual snapshot = .ok r)
    (hpressing : settings.tolerance ≤ r) (hstep : c.step settings snapshot = .ok next)
    (hexact : c.residual next = .ok 0.0) :
    of settings c snapshot = ⟨[⟨next, 0.0⟩, ⟨snapshot, r⟩], .settled, next⟩ := by
  have hbudget := settings.maxIterations_pos hcheck
  have htolerance := settings.tolerance_pos hcheck
  have hreached : ¬ settings.tolerance ≤ 0.0 := not_le_of_lt htolerance
  have himproved : ¬ r ≤ 0.0 := by
    intro hle
    have hnonpositive : ¬ 0.0 < r := fun hlt => not_le_of_lt hlt hle
    exact not_le_of_lt (lt_of_not_lt_of_lt (isNaN_of_le hpressing) hnonpositive htolerance) hpressing
  obtain ⟨budget, hbudget⟩ := Nat.exists_eq_succ_of_ne_zero hbudget.ne'
  simp only [of, hresidual, hbudget, Nat.succ_eq_add_one, pursue, if_pos hpressing, hstep, hexact, if_neg himproved]
  cases budget with
  | zero => simp only [pursue, if_neg hreached]
  | succ budget => simp only [pursue, if_neg hreached]

end Course

/-- The observer takes note of constraints that settle, and interrupts none of them. -/
def Observer.HearsSettled (observer : Observer) : Prop := ∀ id kind steps r, observer (.settled id kind steps r) = none

theorem Observer.hearsSettled_silent : Observer.silent.HearsSettled := fun _ _ _ _ => rfl

/-- The turn of a constraint whose course settles. -/
theorem Constraint.attempt_of_settled {observer : Observer} {settings : SolverSettings} {c : Constraint}
    {snapshot geometry : Snapshot} {last : Visit} {earlier : List Visit} (hhears : observer.HearsSettled)
    (h : Course.of settings c snapshot = ⟨last :: earlier, .settled, geometry⟩) :
    let own := c.attempt observer settings snapshot
    own.error = none ∧ own.iterations = .ofNat earlier.length ∧ own.geometry = geometry := by
  have hevents : Course.events c ⟨last :: earlier, .settled, geometry⟩ =
      [.settled c.id c.kind earlier.length last.residual] := rfl
  have hheard : observer.hear [.settled c.id c.kind earlier.length last.residual] =
      ([.settled c.id c.kind earlier.length last.residual], none) := by
    simp only [Observer.hear, hhears c.id c.kind earlier.length last.residual]
  rw [attempt_eq, h, hevents, hheard]
  exact ⟨rfl, rfl, rfl⟩

/-! ### Copies -/

theorem Entity.circular?_withRadius {e : Entity} {center : Point} {old : Float} (h : e.circular? = some (center, old))
    (r : Float) : (e.withRadius r).circular? = some (center, r) := by
  cases e <;> cases h <;> rfl

namespace Constraint

variable {settings : SolverSettings} {c : Constraint} {s : Snapshot}

theorem lineAt_eq_ok {place : Nat} {l : Line} :
    c.lineAt s place = .ok l ↔
      c.entities[place]? = some l.id ∧ s.get? l.id = some (.line l.segment.start l.segment.stop) := by
  constructor
  · intro h
    exact ⟨place_of_lineAt h, (finds_lineAt h).2⟩
  · intro ⟨hplace, hfound⟩
    exact bind_eq_ok.mpr ⟨l.subject, subjectAt_eq_ok.mpr ⟨hplace, hfound⟩, rfl⟩

theorem roundAt_eq_ok {place : Nat} {r : Round} :
    c.roundAt s place = .ok r ↔ c.entities[place]? = some r.id ∧ s.get? r.id = some r.entity ∧
      r.entity.circular? = some (r.center, r.radius) := by
  constructor
  · intro h
    exact ⟨place_of_roundAt h, (finds_roundAt h).2, circular_of_roundAt h⟩
  · intro ⟨hplace, hfound, hcircular⟩
    have hround : r.subject.entity.circular? = some (r.center, r.radius) := hcircular
    refine bind_eq_ok.mpr ⟨r.subject, subjectAt_eq_ok.mpr ⟨hplace, hfound⟩, ?_⟩
    rw [asRound, hround]
    rfl

/-- Why a constraint is done with one copy: it can be measured, and holds exactly behind a step that
gives one entity another value. -/
structure Copies (settings : SolverSettings) (c : Constraint) (before : Snapshot) (r : Float) (id : EntityId)
    (e : Entity) : Prop where
  measured : c.residual before = .ok r
  number : r.isNaN = false
  stepped : c.step settings before = .ok (before.insert id e)
  exact : c.residual (before.insert id e) = .ok 0.0
  copy : c.Copy before id e

theorem copies_of_relation {before after : Relation} {r : Float} {id : EntityId} {e : Entity}
    (hbefore : c.relation? s = .ok before) (hafter : c.relation? (s.insert id e) = .ok after)
    (hresidual : before.residual = .ok r) (hnumber : r.isNaN = false)
    (hcorrection : before.correction settings = .ok [⟨id, e⟩]) (hexact : after.residual = .ok 0.0)
    (hcopy : c.Copy s id e) : c.Copies settings s r id e where
  measured := residual_eq_ok.mpr ⟨before, hbefore, hresidual⟩
  number := hnumber
  stepped := step_eq_ok.mpr ⟨[⟨id, e⟩], correction_eq_ok.mpr ⟨before, hbefore, hcorrection⟩, rfl⟩
  exact := residual_eq_ok.mpr ⟨after, hafter, hexact⟩
  copy := hcopy

/-! ### The four kinds -/

section Kinds
variable {id first : EntityId} {start stop : Point} {e e' : Entity} {center center' : Point} {old r : Float}

theorem lineAt_of_found (place : c.entities = [id]) (found : s.get? id = some (.line start stop)) :
    c.lineAt s 0 = .ok ⟨id, start, stop⟩ :=
  lineAt_eq_ok.mpr ⟨congrArg (·[0]?) place, found⟩

theorem copies_horizontal (settings : SolverSettings) (kind : c.kind = .horizontal) (place : c.entities = [id])
    (found : s.get? id = some (.line start stop)) (hstart : start.y.isFinite = true) (hstop : stop.y.isFinite = true) :
    c.Copies settings s (stop.y - start.y).abs id (.line start ⟨stop.x, start.y⟩) := by
  have hrelation {t : Snapshot} {p q : Point} (h : t.get? id = some (.line p q)) :
      c.relation? t = .ok (.horizontal ⟨id, p, q⟩) := by
    simp only [relation?, kind, lineAt_of_found place h]
    rfl
  exact copies_of_relation (hrelation found) (hrelation (Table.get?_insert_self ..)) rfl
    (isNaN_abs (isNaN_sub hstop hstart)) rfl (congrArg Except.ok (abs_sub_self hstart)) (.horizontal kind place found)

theorem copies_vertical (settings : SolverSettings) (kind : c.kind = .vertical) (place : c.entities = [id])
    (found : s.get? id = some (.line start stop)) (hstart : start.x.isFinite = true) (hstop : stop.x.isFinite = true) :
    c.Copies settings s (stop.x - start.x).abs id (.line start ⟨start.x, stop.y⟩) := by
  have hrelation {t : Snapshot} {p q : Point} (h : t.get? id = some (.line p q)) :
      c.relation? t = .ok (.vertical ⟨id, p, q⟩) := by
    simp only [relation?, kind, lineAt_of_found place h]
    rfl
  exact copies_of_relation (hrelation found) (hrelation (Table.get?_insert_self ..)) rfl
    (isNaN_abs (isNaN_sub hstop hstart)) rfl (congrArg Except.ok (abs_sub_self hstart)) (.vertical kind place found)

theorem copies_radius (settings : SolverSettings) (kind : c.kind = .radius) (place : c.entities = [id])
    (found : s.get? id = some e) (round : e.circular? = some (center, old))
    (value : c.parameters.number? .radius = some r) (hold : old.isFinite = true) (hr : r.isFinite = true) :
    c.Copies settings s (old - r).abs id (e.withRadius r) := by
  have hrelation {t : Snapshot} {e : Entity} {radius : Float} (h : t.get? id = some e)
      (hround : e.circular? = some (center, radius)) : c.relation? t = .ok (.radius r ⟨id, e, center, radius⟩) := by
    have hround : c.roundAt t 0 = .ok ⟨id, e, center, radius⟩ := roundAt_eq_ok.mpr ⟨congrArg (·[0]?) place, h, hround⟩
    simp only [relation?, kind, numberOf_eq_ok.mpr value, hround]
    rfl
  exact copies_of_relation (hrelation found round)
    (hrelation (Table.get?_insert_self ..) (Entity.circular?_withRadius round r)) rfl
    (isNaN_abs (isNaN_sub hold hr)) rfl (congrArg Except.ok (abs_sub_self hr)) (.radius kind place found round value)

theorem copies_equalRadius (settings : SolverSettings) (kind : c.kind = .equalRadius)
    (places : c.entities = [first, id]) (distinct : first ≠ id) (original : s.get? first = some e')
    (round' : e'.circular? = some (center', r)) (found : s.get? id = some e)
    (round : e.circular? = some (center, old)) (hr : r.isFinite = true) (hold : old.isFinite = true) :
    c.Copies settings s (r - old).abs id (e.withRadius r) := by
  have hrelation {t : Snapshot} {e : Entity} {radius : Float} (hfirst : t.get? first = some e') (h : t.get? id = some e)
      (hround : e.circular? = some (center, radius)) :
      c.relation? t = .ok (.equalRadius ⟨first, e', center', r⟩ ⟨id, e, center, radius⟩) := by
    have hfixed : c.roundAt t 0 = .ok ⟨first, e', center', r⟩ :=
      roundAt_eq_ok.mpr ⟨congrArg (·[0]?) places, hfirst, round'⟩
    have hmoved : c.roundAt t 1 = .ok ⟨id, e, center, radius⟩ :=
      roundAt_eq_ok.mpr ⟨congrArg (·[1]?) places, h, hround⟩
    simp only [relation?, kind, hfixed, hmoved]
    rfl
  have hfirst : (s.insert id (e.withRadius r)).get? first = some e' := by
    rw [Table.get?_insert_of_ne s distinct.symm, original]
  have hradius : s.radius? first = some r := by
    rw [Snapshot.radius?, original, Option.bind_some, Entity.radius?, round']
    rfl
  exact copies_of_relation (hrelation original found round)
    (hrelation hfirst (Table.get?_insert_self ..) (Entity.circular?_withRadius round r)) rfl
    (isNaN_abs (isNaN_sub hr hold)) rfl (congrArg Except.ok (abs_sub_self hr))
    (.equalRadius kind places distinct found round hradius)

end Kinds

/-! ### Admitted constraints -/

theorem exists_line {id : EntityId} (h : s.kind? id = some .line) :
    ∃ start stop, s.get? id = some (.line start stop) := by
  unfold Snapshot.kind? at h
  cases found : s.get? id with
  | none => simp [found] at h
  | some e =>
    cases e with
    | line start stop => exact ⟨start, stop, rfl⟩
    | _ => simp [found, Entity.kind] at h

theorem exists_round {id : EntityId} (h : (s.kind? id).any EntityKind.isCircular = true) :
    ∃ e center radius, s.get? id = some e ∧ e.circular? = some (center, radius) := by
  unfold Snapshot.kind? at h
  cases found : s.get? id with
  | none => simp [found] at h
  | some e =>
    cases e with
    | circle center radius => exact ⟨_, center, radius, rfl, rfl⟩
    | arc center radius startAngle endAngle => exact ⟨_, center, radius, rfl, rfl⟩
    | _ => simp [found, Entity.kind, EntityKind.isCircular] at h

/-- A constraint of one of these kinds that passes the check on a finite geometry is done with one copy. -/
theorem exists_copies (settings : SolverSettings) (hfinite : s.IsFinite) (hkind : c.kind.copies = true)
    (h : Admission.check s c.kind c.entities c.parameters = .ok ()) : ∃ r id e, c.Copies settings s r id e := by
  obtain ⟨hfits, harity, hdistinct, hvalue, _⟩ := Admission.check_eq_ok.mp h
  have hentity {id : EntityId} {e : Entity} (found : s.get? id = some e) : e.IsFinite :=
    hfinite e (Table.mem_values_iff.mpr ⟨id, found⟩)
  have hradius {id : EntityId} {e : Entity} {center : Point} {radius : Float} (found : s.get? id = some e)
      (round : e.circular? = some (center, radius)) : radius.isFinite = true :=
    (hentity found).2 radius (Entity.radius_mem_measures round)
  cases hk : c.kind <;> rw [hk] at harity hkind hvalue <;> try cases hkind
  case horizontal =>
    obtain ⟨id, place⟩ := List.length_eq_one_iff.mp (eq_of_beq harity)
    obtain ⟨start, stop, found⟩ := exists_line ((fits_line s place fun _ => by rw [hk]; rfl).mp hfits)
    have hcoordinates := (hentity found).1
    have hstart : start.y.isFinite = true := hcoordinates start.y (by simp [Entity.coordinates, Point.coordinates])
    have hstop : stop.y.isFinite = true := hcoordinates stop.y (by simp [Entity.coordinates, Point.coordinates])
    exact ⟨_, _, _, copies_horizontal settings hk place found hstart hstop⟩
  case vertical =>
    obtain ⟨id, place⟩ := List.length_eq_one_iff.mp (eq_of_beq harity)
    obtain ⟨start, stop, found⟩ := exists_line ((fits_line s place fun _ => by rw [hk]; rfl).mp hfits)
    have hcoordinates := (hentity found).1
    have hstart : start.x.isFinite = true := hcoordinates start.x (by simp [Entity.coordinates, Point.coordinates])
    have hstop : stop.x.isFinite = true := hcoordinates stop.x (by simp [Entity.coordinates, Point.coordinates])
    exact ⟨_, _, _, copies_vertical settings hk place found hstart hstop⟩
  case radius =>
    obtain ⟨id, place⟩ := List.length_eq_one_iff.mp (eq_of_beq harity)
    obtain ⟨e, center, old, found, round⟩ := exists_round ((fits_round s place fun _ => by rw [hk]; rfl).mp hfits)
    obtain ⟨target, value⟩ := Option.isSome_iff_exists.mp (Admission.number?_isSome hvalue rfl)
    exact ⟨_, _, _, copies_radius settings hk place found round value (hradius found round)
      (Admission.number?_isFinite hvalue rfl value)⟩
  case equalRadius =>
    obtain ⟨first, id, places⟩ := List.length_eq_two.mp (eq_of_beq harity)
    obtain ⟨hfirst, hsecond⟩ := (fits_rounds s places fun _ => by rw [hk]; rfl).mp hfits
    obtain ⟨e', center', r, original, round'⟩ := exists_round hfirst
    obtain ⟨e, center, old, found, round⟩ := exists_round hsecond
    have distinct : first ≠ id := by simpa [places] using (Admission.firstRepeated?_eq_none.mp hdistinct).1
    exact ⟨_, _, _, copies_equalRadius settings hk places distinct original round' found round (hradius original round')
      (hradius found round)⟩

end Constraint

/-! ### Passes -/

/-- What a pass comes to that is about one copying constraint only, and finds it with the residual `r`. -/
structure Pass.Copied (settings : SolverSettings) (c : Constraint) (before : Snapshot) (r : Float) (solution : Solution)
    (pass : Pass) : Prop where
  solutions : pass.solutions = [solution]
  constraint : solution.constraint = c.id
  satisfied : solution.satisfied = true
  error : solution.error = none
  /-- Where the constraint holds, nothing is done. -/
  idle : r < settings.tolerance → solution.iterations = 0 ∧ solution.residual = r ∧ pass.geometry = before
  /-- Otherwise one copy is made, and nothing is left to be done. -/
  once : ¬ r < settings.tolerance → solution.iterations = 1 ∧ solution.residual = 0.0 ∧
    ∃ id e, c.Copy before id e ∧ pass.geometry = before.insert id e

namespace Solver

variable (solver : Solver) {observer : Observer} {l : List Constraint} {c : Constraint} {snapshot : Snapshot}

/-- A pass over a single constraint whose course settles below the tolerance. -/
theorem run_of_settled {geometry : Snapshot} {r : Float} {earlier : List Visit} (hhears : observer.HearsSettled)
    (hsingle : l.filter (·.active) = [c])
    (hcourse : Course.of solver.settings c snapshot = ⟨⟨geometry, r⟩ :: earlier, .settled, geometry⟩)
    (hresidual : c.residual geometry = .ok r) (hreached : r < solver.settings.tolerance) :
    ∃ updates, (solver.run observer l snapshot).solutions = [⟨c.id, true, updates, .ofNat earlier.length, r, none⟩] ∧
      (solver.run observer l snapshot).geometry = geometry := by
  let own := c.attempt observer solver.settings snapshot
  obtain ⟨herror, hiterations, hgeometry⟩ : own.error = none ∧ own.iterations = _ ∧ own.geometry = geometry :=
    Constraint.attempt_of_settled hhears hcourse
  have horder : solveOrder l = [c] := by rw [solveOrder, hsingle]; rfl
  have hsolutions : (solver.run observer l snapshot).solutions = [own.verdict solver.settings own.geometry] := by
    rw [run, horder]
    rfl
  have hfinal : (solver.run observer l snapshot).geometry = own.geometry := by
    rw [run, horder]
    rfl
  refine ⟨own.updates, ?_, hfinal.trans hgeometry⟩
  have hverdict : own.verdict solver.settings own.geometry = ⟨c.id, true, own.updates, own.iterations, r, none⟩ := by
    simp only [Attempt.verdict, herror, hgeometry, own, Constraint.attempt_constraint, hresidual, hreached, decide_true]
  rw [hsolutions, hverdict, hiterations]

/-- A pass over a single constraint that is done with one copy: it makes the copy unless the constraint holds. -/
theorem run_of_copies {r : Float} {id : EntityId} {e : Entity} (hcheck : solver.settings.check = .ok ())
    (hhears : observer.HearsSettled) (hsingle : l.filter (·.active) = [c])
    (hcopies : c.Copies solver.settings snapshot r id e) :
    let pass := solver.run observer l snapshot
    (r < solver.settings.tolerance →
      ∃ updates, pass.solutions = [⟨c.id, true, updates, 0, r, none⟩] ∧ pass.geometry = snapshot) ∧
    (¬ r < solver.settings.tolerance →
      ∃ updates, pass.solutions = [⟨c.id, true, updates, 1, 0.0, none⟩] ∧ pass.geometry = snapshot.insert id e) := by
  have htolerance := solver.settings.tolerance_pos hcheck
  refine ⟨fun hless => ?_, fun hless => ?_⟩
  · have hcourse := Course.of_holds hcopies.measured hless
    exact solver.run_of_settled hhears hsingle hcourse hcopies.measured hless
  · have hpressing : solver.settings.tolerance ≤ r := by
      by_contra hbelow
      exact hless ((not_le_iff (lt_iff_rank.mp htolerance).2.1 hcopies.number).mp hbelow)
    have hcourse := Course.of_exact hcheck hcopies.measured hpressing hcopies.stepped hcopies.exact
    exact solver.run_of_settled hhears hsingle hcourse hcopies.exact htolerance

/-- **Copying is done in one exact step.** A pass over a single constraint that copies, on a finite geometry that it
was admitted to, satisfies it: without a step where its residual is below the tolerance already, and otherwise in
one, after which nothing has changed but the entity that now holds the copy and the residual is zero. -/
theorem run_copying (hcheck : solver.settings.check = .ok ()) (hhears : observer.HearsSettled)
    (hsingle : l.filter (·.active) = [c]) (hfinite : snapshot.IsFinite) (hkind : c.kind.copies = true)
    (hadmitted : Admission.check snapshot c.kind c.entities c.parameters = .ok ()) :
    ∃ r solution, c.residual snapshot = .ok r ∧
      (solver.run observer l snapshot).Copied solver.settings c snapshot r solution := by
  obtain ⟨r, id, e, hcopies⟩ := Constraint.exists_copies solver.settings hfinite hkind hadmitted
  obtain ⟨hidle, honce⟩ := solver.run_of_copies hcheck hhears hsingle hcopies
  by_cases hless : r < solver.settings.tolerance
  · obtain ⟨updates, hsolutions, hgeometry⟩ := hidle hless
    exact ⟨r, _, hcopies.measured, hsolutions, rfl, rfl, rfl, fun _ => ⟨rfl, rfl, hgeometry⟩, fun h => absurd hless h⟩
  · obtain ⟨updates, hsolutions, hgeometry⟩ := honce hless
    exact ⟨r, _, hcopies.measured, hsolutions, rfl, rfl, rfl, fun h => absurd h hless,
      fun _ => ⟨rfl, rfl, id, e, hcopies.copy, hgeometry⟩⟩

/-- An arc takes over the radius of a circle. -/
theorem run_copying_arc :
    let arc : Entity := .arc ⟨4.0, 0.0⟩ 1.0 0.0 3.0
    let drawing : Snapshot := .ofList [(⟨⟨1⟩⟩, .circle ⟨0.0, 0.0⟩ 1.5), (⟨⟨2⟩⟩, arc), (⟨⟨3⟩⟩, .point ⟨1.0, 1.0⟩)]
    let equal := Constraint.bare 4 .equalRadius [⟨⟨1⟩⟩, ⟨⟨2⟩⟩]
    let idle : Constraint := { Constraint.bare 5 .horizontal [⟨⟨3⟩⟩] with active := false }
    let pass := Solver.run ⟨{}⟩ .silent [idle, equal] drawing
    Observer.silent.HearsSettled ∧ drawing.IsFinite ∧
      Admission.check drawing equal.kind equal.entities equal.parameters = .ok () ∧
      (∃ r solution, equal.residual drawing = .ok r ∧ pass.Copied {} equal drawing r solution) ∧
      pass.geometry = drawing.insert ⟨⟨2⟩⟩ (.arc ⟨4.0, 0.0⟩ 1.5 0.0 3.0) := by
  intro arc drawing equal idle pass
  have hfinite : drawing.IsFinite := by decide +kernel
  have hadmitted : Admission.check drawing equal.kind equal.entities equal.parameters = .ok () := by decide +kernel
  have hcheck : ({} : SolverSettings).check = .ok () := by decide +kernel
  exact ⟨Observer.hearsSettled_silent, hfinite, hadmitted,
    run_copying ⟨{}⟩ hcheck Observer.hearsSettled_silent rfl hfinite rfl hadmitted, by decide +kernel⟩

end Solver

end Drafting
