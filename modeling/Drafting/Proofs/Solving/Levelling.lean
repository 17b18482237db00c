import Drafting.Proofs.Number.Root
import Drafting.Proofs.Solving.Copying

/-! Lines made horizontal or vertical.

To make a line horizontal, its end is brought to the height of its start. What is left of
the line then is its extent along the x axis, and of a line at right angles to the
requested direction nothing is left at all. The length of what is left is the root of the
square of the extent, and rounding does not carry it across `epsilon`
(`Number.epsilon_le_sqrt_iff`). So the line is still long enough to have a direction exactly
if its extent was, or if it was level already and was not touched
(`Solver.run_keeps_line`). -/
namespace Drafting

open Number

namespace Segment

/-- How far a segment reaches in the direction that a kind of constraints asks for: along the y axis for a
vertical line, and along the x axis otherwise. -/
def extent (kind : ConstraintKind) (s : Segment) : Float :=
  match kind with
  | .vertical => (s.stop.y - s.start.y).abs
  | _ => (s.stop.x - s.start.x).abs

variable {start stop : Point}

/-- What is left of a segment whose end has come to the height of its start. -/
theorem epsilon_le_length_horizontal (hstart : start.isFinite = true) (hstop : stop.isFinite = true) :
    epsilon ≤ (Segment.mk start ⟨stop.x, start.y⟩).length ↔ epsilon ≤ (stop.x - start.x).abs := by
  obtain ⟨hx, hy⟩ := Bool.and_eq_true_iff.mp hstart
  have hflat : (start.y - start.y) * (start.y - start.y) = 0.0 := by
    rw [sub_self hy]
    decide +kernel
  have hlength : (Segment.mk start ⟨stop.x, start.y⟩).length =
      ((stop.x - start.x) * (stop.x - start.x) + (start.y - start.y) * (start.y - start.y)).sqrt := rfl
  rw [hlength, hflat]
  exact epsilon_le_sqrt_iff (isNaN_sub (Bool.and_eq_true_iff.mp hstop).1 hx)

/-- What is left of a segment whose end has come above or below its start. -/
theorem epsilon_le_length_vertical (hstart : start.isFinite = true) (hstop : stop.isFinite = true) :
    epsilon ≤ (Segment.mk start ⟨start.x, stop.y⟩).length ↔ epsilon ≤ (stop.y - start.y).abs := by
  obtain ⟨hx, hy⟩ := Bool.and_eq_true_iff.mp hstart
  have hsteep : (start.x - start.x) * (start.x - start.x) = 0.0 := by
    rw [sub_self hx]
    decide +kernel
  have hlength : (Segment.mk start ⟨start.x, stop.y⟩).length =
      ((start.x - start.x) * (start.x - start.x) + (stop.y - start.y) * (stop.y - start.y)).sqrt := rfl
  rw [hlength, hsteep, add_comm]
  exact epsilon_le_sqrt_iff (isNaN_sub (Bool.and_eq_true_iff.mp hstop).2 hy)

end Segment

namespace Solver

variable (solver : Solver) {observer : Observer} {l : List Constraint} {c : Constraint} {snapshot : Snapshot}
variable {id : EntityId} {start stop : Point}

/-- A pass over a single constraint that turns a line into another with one copy. -/
theorem line_of_copies {r : Float} {stop' : Point} (hcheck : solver.settings.check = .ok ())
    (hhears : observer.HearsSettled) (hsingle : l.filter (·.active) = [c])
    (hfound : snapshot.get? id = some (.line start stop)) (hlong : epsilon ≤ (Segment.mk start stop).length)
    (hcopies : c.Copies solver.settings snapshot r id (.line start stop')) :
    ∃ s : Segment, (solver.run observer l snapshot).geometry.get? id = some (.ofSegment s) ∧
      (epsilon ≤ s.length ↔
        c.Holds solver.settings snapshot ∨ epsilon ≤ (Segment.mk start stop').length) := by
  obtain ⟨hidle, honce⟩ := solver.run_of_copies hcheck hhears hsingle hcopies
  by_cases hless : r < solver.settings.tolerance
  · obtain ⟨_, _, hgeometry⟩ := hidle hless
    have hholds := (Constraint.holds_of_residual hcopies.measured).mpr hless
    exact ⟨⟨start, stop⟩, by rw [hgeometry, hfound, Entity.ofSegment], iff_of_true hlong (.inl hholds)⟩
  · obtain ⟨_, _, hgeometry⟩ := honce hless
    have hviolated := (Constraint.holds_of_residual hcopies.measured).not.mpr hless
    refine ⟨⟨start, stop'⟩, by rw [hgeometry, Table.get?_insert_self, Entity.ofSegment], ?_⟩
    rw [or_iff_right hviolated]

/-- **What is left of a line that is made horizontal or vertical.** After a pass over one such constraint only, a line
that was long enough to have a direction still is exactly if the constraint was fulfilled before the pass or the
line reached far enough in the requested direction. -/
theorem run_keeps_line (hcheck : solver.settings.check = .ok ()) (hhears : observer.HearsSettled)
    (hsingle : l.filter (·.active) = [c]) (hkind : c.kind = .horizontal ∨ c.kind = .vertical)
    (hplace : c.entities = [id]) (hfound : snapshot.get? id = some (.line start stop))
    (hstart : start.isFinite = true) (hstop : stop.isFinite = true)
    (hlong : epsilon ≤ (Segment.mk start stop).length) :
    ∃ s : Segment, (solver.run observer l snapshot).geometry.get? id = some (.ofSegment s) ∧
      (epsilon ≤ s.length ↔
        c.Holds solver.settings snapshot ∨ epsilon ≤ (Segment.mk start stop).extent c.kind) := by
  obtain ⟨hx, hy⟩ := Bool.and_eq_true_iff.mp hstart
  obtain ⟨hx', hy'⟩ := Bool.and_eq_true_iff.mp hstop
  rcases hkind with hk | hk
  · have hcopies := Constraint.copies_horizontal solver.settings hk hplace hfound hy hy'
    have hextent : (Segment.mk start stop).extent c.kind = (stop.x - start.x).abs := by rw [hk]; rfl
    rw [hextent, ← Segment.epsilon_le_length_horizontal hstart hstop]
    exact solver.line_of_copies hcheck hhears hsingle hfound hlong hcopies
  · have hcopies := Constraint.copies_vertical solver.settings hk hplace hfound hx hx'
    have hextent : (Segment.mk start stop).extent c.kind = (stop.y - start.y).abs := by rw [hk]; rfl
    rw [hextent, ← Segment.epsilon_le_length_vertical hstart hstop]
    exact solver.line_of_copies hcheck hhears hsingle hfound hlong hcopies

/-- A slanted line is made vertical and keeps its height. -/
theorem run_keeps_line_slanted :
    let slanted : Segment := ⟨⟨1.0, 2.0⟩, ⟨4.0, -2.0⟩⟩
    let drawing : Snapshot := .ofList [(⟨⟨1⟩⟩, .ofSegment slanted), (⟨⟨2⟩⟩, .circle ⟨0.0, 0.0⟩ 1.5)]
    let upright := Constraint.bare 3 .vertical [⟨⟨1⟩⟩]
    let pass := Solver.run ⟨{}⟩ .silent [upright] drawing
    epsilon ≤ slanted.length ∧ ¬ upright.Holds {} drawing ∧
      ∃ s : Segment, pass.geometry.get? ⟨⟨1⟩⟩ = some (.ofSegment s) ∧ epsilon ≤ s.length := by
  intro slanted drawing upright pass
  have hlong : epsilon ≤ slanted.length := by decide +kernel
  have hcheck : ({} : SolverSettings).check = .ok () := by decide +kernel
  have hsingle : [upright].filter (·.active) = [upright] := rfl
  have hfound : drawing.get? ⟨⟨1⟩⟩ = some (.ofSegment slanted) := rfl
  obtain ⟨s, hfound, hkept⟩ := run_keeps_line ⟨{}⟩ hcheck Observer.hearsSettled_silent hsingle (.inr rfl) rfl hfound
    (by decide +kernel) (by decide +kernel) hlong
  exact ⟨hlong, by decide +kernel, s, hfound, hkept.mpr (.inr (by decide +kernel))⟩

/-- **A line at right angles to the requested direction is lost.** Made horizontal, an upright line ends where it
starts. -/
theorem run_loses_upright_line :
    ¬ ∀ (solver : Solver) (c : Constraint) (snapshot : Snapshot) (id : EntityId) (before after : Segment),
      solver.settings.check = .ok () → snapshot.IsFinite → (c.kind = .horizontal ∨ c.kind = .vertical) →
      c.active = true → c.entities = [id] → snapshot.get? id = some (.ofSegment before) → epsilon ≤ before.length →
      (solver.run .silent [c] snapshot).geometry.get? id = some (.ofSegment after) → epsilon ≤ after.length := by
  intro hkeeps
  let upright : Segment := ⟨⟨0.0, 0.0⟩, ⟨0.0, 5.0⟩⟩
  let collapsed : Segment := ⟨⟨0.0, 0.0⟩, ⟨0.0, 0.0⟩⟩
  have hlong : epsilon ≤ collapsed.length :=
    hkeeps ⟨{}⟩ (.bare 2 .horizontal [⟨⟨1⟩⟩]) (.ofList [(⟨⟨1⟩⟩, .ofSegment upright)]) ⟨⟨1⟩⟩ upright collapsed
      (by decide +kernel) (by decide +kernel) (.inl rfl) rfl rfl rfl (by decide +kernel) (by decide +kernel)
  have hnone : ¬ epsilon ≤ collapsed.length := by decide +kernel
  exact hnone hlong

end Solver

end Drafting
