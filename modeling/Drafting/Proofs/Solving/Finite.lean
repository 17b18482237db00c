import Drafting.Proofs.Entity.Finite
import Drafting.Proofs.Number.Finite
import Drafting.Proofs.Solving.Pass

/-! What stays finite.

Most corrections form distances, quotients and products of numbers, and any of these
can be too large, so the entities that they move may get coordinates that are not
finite. Five kinds of constraints do nothing of this sort: they take a coordinate
over from where it stands, or give a radius (`ConstraintKind.displaces`). A radius
is a value that was asked for, half of it, or another radius. So a pass keeps every
measure finite, and every coordinate of the entities that no other constraint is
about (`Solver.run_finite`). -/
namespace Drafting

open Number (AllFinite)

/-- Whether corrections of this kind may displace entities, by any amount. -/
def ConstraintKind.displaces : ConstraintKind → Bool
  | .horizontal | .vertical | .radius | .diameter | .equalRadius => false
  | _ => true

/-- The measures of a snapshot are finite, and the coordinates too of all entities but some. -/
def Snapshot.FiniteBut (lost : EntityId → Prop) (s : Snapshot) : Prop :=
  ∀ id e, s.get? id = some e → AllFinite e.measures ∧ (¬ lost id → AllFinite e.coordinates)

/-- Where the constraint has a value, that is finite. -/
def Constraint.HasFiniteValue (c : Constraint) : Prop :=
  ∀ key, c.kind.valueKey? = some key → ∀ x, c.parameters.number? key = some x → x.isFinite = true

/-! ### One correction -/

namespace Relation

variable {settings : SolverSettings} {r : Relation} {changes : List Subject}

/-- The radius that a relation gives, if it is about one. -/
def newRadius? : Relation → Option Float
  | equalRadius fixed _ => some fixed.radius
  | radius target _ => some target
  | diameter target _ => some (target / 2.0)
  | _ => none

/-- A correction gives no measures but that radius. -/
theorem correction_measures (h : r.correction settings = .ok changes) :
    List.Forall₂ (fun s s' => s'.id = s.id ∧ ∀ x ∈ s'.entity.measures, x ∈ s.entity.measures ∨ r.newRadius? = some x)
      (r.movers settings) changes := by
  cases hr : r.resizes with
  | false =>
    refine (correction_moves settings hr h).imp fun s s' hmoved => ⟨hmoved.1, fun x hx => .inl ?_⟩
    rwa [← hmoved.2.measures_eq]
  | true =>
    cases r <;> simp only [correction, pure_eq_ok] at h
    case equalRadius | radius | diameter =>
      subst h
      refine .cons ⟨rfl, fun x hx => ?_⟩ .nil
      exact (Entity.measures_withRadius hx).imp_right (congrArg some)
    all_goals cases hr

/-- A correction that displaces nothing gives no coordinates that its movers do not have. -/
theorem correction_coordinates (hr : r.kind.displaces = false) (h : r.correction settings = .ok changes) :
    List.Forall₂ (fun s s' => s'.id = s.id ∧ ∀ x ∈ s'.entity.coordinates, x ∈ s.entity.coordinates)
      (r.movers settings) changes := by
  cases r <;> simp only [correction, pure_eq_ok] at h
  case horizontal l | vertical l =>
    subst h
    refine .cons ⟨rfl, fun x hx => ?_⟩ .nil
    simp only [Line.subject, Entity.ofSegment, Entity.coordinates, Point.coordinates, List.mem_append, List.mem_cons,
      List.not_mem_nil, or_false] at hx ⊢
    tauto
  case equalRadius | radius | diameter =>
    subst h
    refine .cons ⟨rfl, fun x hx => ?_⟩ .nil
    rwa [Entity.coordinates_withRadius] at hx
  all_goals cases hr

end Relation

/-! ### One step -/

namespace Constraint

variable {c : Constraint} {settings : SolverSettings} {lost : EntityId → Prop} {s t : Snapshot}

/-- The center and the radius of a circle or arc are those of its entity. -/
theorem circular_of_roundAt {place : Nat} {round : Round} (h : c.roundAt s place = .ok round) :
    round.entity.circular? = some (round.center, round.radius) := by
  obtain ⟨⟨id, e⟩, _, hround⟩ := bind_eq_ok.mp h
  cases e <;> cases hround <;> rfl

theorem numberOf_eq_ok {key : ParameterKey} {x : Float} : c.numberOf key = .ok x ↔ c.parameters.number? key = some x := by
  unfold numberOf demanded
  cases c.parameters.number? key <;> simp

/-- The radius that a constraint gives is finite. -/
theorem newRadius_isFinite (hvalue : c.HasFiniteValue) (h : s.FiniteBut lost) {r : Relation} (hr : c.relation? s = .ok r)
    {x : Float} (hx : r.newRadius? = some x) : x.isFinite = true := by
  have hkind := kind_relation? hr
  unfold relation? at hr
  rw [← hkind] at hr
  cases r <;> cases hx
  case equalRadius =>
    simp only [Relation.kind, bind_eq_ok, pure_eq_ok] at hr
    obtain ⟨round, hround, _, _, heq⟩ := hr
    cases heq
    obtain ⟨_, hget⟩ := finds_roundAt hround
    exact (h _ _ hget).1 _ (Entity.radius_mem_measures (circular_of_roundAt hround))
  case radius =>
    simp only [Relation.kind, bind_eq_ok, pure_eq_ok] at hr
    obtain ⟨target, htarget, _, _, heq⟩ := hr
    cases heq
    exact hvalue .radius (by rw [← hkind]; rfl) _ (numberOf_eq_ok.mp htarget)
  case diameter =>
    simp only [Relation.kind, bind_eq_ok, pure_eq_ok] at hr
    obtain ⟨target, htarget, _, _, heq⟩ := hr
    cases heq
    exact Number.isFinite_div_two (hvalue .diameter (by rw [← hkind]; rfl) _ (numberOf_eq_ok.mp htarget))

/-- **A corrective step keeps what is finite**, if its constraint displaces only what may be lost. -/
theorem step_finite (hvalue : c.HasFiniteValue) (hlost : c.kind.displaces = true → ∀ id ∈ c.entities, lost id)
    (h : s.FiniteBut lost) (hstep : c.step settings s = .ok t) : t.FiniteBut lost := by
  obtain ⟨changes, hc, rfl⟩ := step_eq_ok.mp hstep
  obtain ⟨r, hr, hc⟩ := correction_eq_ok.mp hc
  intro id e he
  rcases Table.get?_insertAll_cases s (changes.map fun s => (s.id, s.entity)) id with hsame | ⟨e', he', hnew⟩
  · exact h id e (hsame ▸ he)
  · obtain ⟨changed, hchanged, heq⟩ := List.mem_map.mp he'
    cases heq
    obtain rfl : changed.entity = e := Option.some.inj (hnew.symm.trans he)
    constructor
    · obtain ⟨mover, hmover, _, hmeasures⟩ := exists_source (Relation.correction_measures hc) hchanged
      intro x hx
      rcases hmeasures x hx with hkept | hradius
      · exact (h _ _ (finds_movers settings hr mover hmover).2).1 x hkept
      · exact newRadius_isFinite hvalue h hr hradius
    · intro hfree
      cases hdisplaces : c.kind.displaces with
      | true =>
        obtain ⟨mover, hmover, hid, _⟩ := exists_source (Relation.correction_reworks settings hc) hchanged
        have hmem := (finds_movers settings hr mover hmover).1
        exact absurd (hlost hdisplaces _ (hid ▸ hmem)) hfree
      | false =>
        rw [← kind_relation? hr] at hdisplaces
        obtain ⟨mover, hmover, hid, hcoordinates⟩ :=
          exists_source (Relation.correction_coordinates hdisplaces hc) hchanged
        intro x hx
        exact (h _ _ (finds_movers settings hr mover hmover).2).2 (hid ▸ hfree) x (hcoordinates x hx)

end Constraint

/-- **A pass keeps what is finite.** -/
theorem Solver.run_finite (solver : Solver) (observer : Observer) {l : List Constraint} {snapshot : Snapshot}
    {lost : EntityId → Prop} (hvalues : ∀ c ∈ l, c.HasFiniteValue)
    (hlost : ∀ c ∈ l, c.active = true → c.kind.displaces = true → ∀ id ∈ c.entities, lost id)
    (h : snapshot.FiniteBut lost) : (solver.run observer l snapshot).geometry.FiniteBut lost :=
  solver.run_preserves observer l snapshot
    (fun c hc hactive _ _ hs hnext => Constraint.step_finite (hvalues c hc) (hlost c hc hactive) hs hnext) h

end Drafting
