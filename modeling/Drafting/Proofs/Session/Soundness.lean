import Drafting.Proofs.Admission
import Drafting.Proofs.Solving.Blame
import Drafting.Session.Run

/-! Sessions keep sound constraints.

Constraints enter a session through admission and through nothing else, and no
later operation touches what makes one sound (`Session.sound_perform`). With that,
admission and solving agree over whole sessions: whatever was done before, a solve
blames an entity of a constraint exactly if admission would refuse its entities in
the present snapshot, and can otherwise complain of a line without length only
(`Session.solve_blames`). -/
namespace Drafting

namespace Session

/-- Every constraint of the session is sound. -/
def Sound (s : Session) : Prop := ∀ c ∈ s.constraints, c.Sound

/-! ### One operation -/

section Operations
variable (now : Timestamp) {s : Session}

/-- An entity that is fixed where it is has a point to be fixed at. -/
theorem point_completed (s : Session) {ids : List EntityId} {parameters : Parameters}
    (h : Admission.Passed s.geometry .fix ids parameters) :
    ((s.completed .fix ids parameters).point? .point).isSome = true := by
  unfold completed
  by_cases hmem : ParameterKey.point ∈ parameters
  · rw [if_neg fun hboth => hboth.2 hmem]
    exact Admission.point_isSome h.point hmem
  · rw [if_pos ⟨rfl, hmem⟩]
    obtain ⟨id, rfl⟩ := List.length_eq_one_iff.mp (eq_of_beq h.arity)
    obtain ⟨found, hkinds, _⟩ := h.kinds
    obtain ⟨k, hk, _⟩ := Admission.kinds_cons.mp hkinds
    obtain ⟨e, he, _⟩ := Option.map_eq_some_iff.mp hk
    simp [he, Parameters.point?]

theorem completed_of_ne (s : Session) {kind : ConstraintKind} (h : kind ≠ .fix) (ids : List EntityId)
    (parameters : Parameters) : s.completed kind ids parameters = parameters :=
  if_neg fun hboth => h hboth.1

theorem sound_create (h : s.Sound) (r : Request) : (s.create now r).session.Sound := by
  unfold create
  split
  · exact h
  · rename_i hcheck
    have hpassed := Admission.check_eq_ok.mp hcheck
    intro c hc
    rcases List.mem_append.mp hc with hc | hc
    · exact h c hc
    · rw [List.mem_singleton.mp hc]
      refine ⟨hpassed.arity, (Admission.firstRepeated?_eq_none.mp hpassed.distinct).1, fun key hkey => ?_,
        fun hkind => ?_, fun hkind => ?_⟩
      · have hkind : r.kind ≠ .fix := fun heq => by simp [heq, ConstraintKind.valueKey?] at hkey
        simp only [completed_of_ne s hkind]
        exact Admission.number?_isSome hpassed.value hkey
      · have hpattern : r.kind = .pattern := hkind
        have hpoint := hpassed.point
        rw [hpattern] at hpoint
        simp only [hpattern, completed_of_ne s (by decide : ConstraintKind.pattern ≠ .fix)]
        exact Admission.offset_isSome hpoint
      · have hfix : r.kind = .fix := hkind
        rw [hfix] at hpassed
        simp only [hfix]
        exact s.point_completed hpassed

theorem sound_remove (h : s.Sound) (id : ConstraintId) : (s.remove id).session.Sound := by
  unfold remove
  split
  · exact h
  · exact fun c hc => h c (List.mem_of_mem_eraseP hc)

theorem sound_toggle (h : s.Sound) (id : ConstraintId) (active : Option Bool) :
    (s.toggle now id active).session.Sound := by
  unfold toggle
  split
  · exact h
  · rename_i i _
    intro c hc
    obtain ⟨j, hj⟩ := List.mem_iff_getElem?.mp hc
    rw [List.getElem?_modify] at hj
    obtain ⟨d, hd, rfl⟩ := Option.map_eq_some_iff.mp hj
    have hsound := h d (List.mem_of_getElem? hd)
    split
    · exact ⟨hsound.arity, hsound.distinct, hsound.value, hsound.offset, hsound.point⟩
    · exact hsound

theorem sound_solve (observer : Observer) (h : s.Sound) : (s.solve observer now).session.Sound := by
  intro c hc
  obtain ⟨d, hd, rfl⟩ := List.mem_map.mp hc
  have hsound := h d hd
  unfold judged
  split
  · split
    · exact hsound
    · exact ⟨hsound.arity, hsound.distinct, hsound.value, hsound.offset, hsound.point⟩
  · exact hsound

theorem sound_connect (h : s.Sound) (first second : EntityId) : (s.connect now first second).session.Sound := by
  unfold connect
  split
  · split
    · exact h
    · split
      · exact h
      · simp only
        split <;> exact sound_create now h _
  · exact h

theorem sound_connectAll (h : s.Sound) (pairs : List (EntityId × EntityId)) :
    (s.connectAll now pairs).session.Sound := by
  induction pairs generalizing s with
  | nil => exact h
  | cons pair rest ih => exact ih (sound_connect now h pair.1 pair.2)

theorem sound_perform (observer : Observer) (h : s.Sound) (operation : Operation) :
    (s.perform observer now operation).session.Sound := by
  cases operation with
  | replaceGeometry snapshot => exact h
  | create request => exact sound_create now h request
  | remove id => exact sound_remove h id
  | toggle id active => exact sound_toggle now h id active
  | solve => exact sound_solve now observer h
  | connectPairs ids => exact sound_connectAll now h _
  | listen react => exact h
  | unlisten id => exact h

end Operations

/-! ### Runs -/

theorem sound_after (observer : Observer) {s : Session} (h : s.Sound) (operations : List (Timestamp × Operation)) :
    (s.after observer operations).Sound := by
  induction operations generalizing s with
  | nil => exact h
  | cons o rest ih => exact ih (sound_perform o.1 observer h o.2)

theorem sound_ofSettings {settings : Settings} {series : Series} {hasStore : Bool} {s : Session}
    (h : ofSettings settings series hasStore = .ok s) : s.Sound := by
  simp only [ofSettings, bind_eq_ok, pure_eq_ok] at h
  obtain ⟨solver, _, _, _, rfl⟩ := h
  exact fun c hc => nomatch hc

/-- A solve has one solution for each active constraint, most important first, and the error that it
may show. -/
theorem solve_blames (observer : Observer) (now : Timestamp) {s : Session} (h : s.Sound) :
    List.Forall₂ (fun c solution => solution.constraint = c.id ∧
        (observer.Interrupted solution.error ∨ c.Blames s.geometry solution.error))
      (solveOrder s.constraints) (s.solve observer now).answer := by
  have hconf := s.solver.run_confined observer s.constraints s.geometry
  exact verdicts_blame observer (fun c hc => h c (mem_solveOrder.mp hc).1) (fun _ => rfl) hconf.kind?_eq

/-- **Admission and solving agree over whole sessions.** After any operations every constraint is sound;
and in a solve then, every active constraint has its solution, whose error is about an entity exactly if
admission would refuse the constraint's entities in the present snapshot, and about a line without length
in every other case in which there is one. Only an observer that refuses an event can put an interruption
there instead, for its own reason. -/
theorem run_sound {settings : Settings} {series : Series} {hasStore : Bool} {s₀ : Session}
    (h : ofSettings settings series hasStore = .ok s₀) (before : Observer)
    (operations : List (Timestamp × Operation)) (observer : Observer) (now : Timestamp) :
    let s := s₀.after before operations
    (∀ c ∈ s.constraints, c.Sound) ∧
    (solveOrder s.constraints).Perm (s.constraints.filter (·.active)) ∧
    List.Forall₂ (fun c solution => solution.constraint = c.id ∧
        (observer.Interrupted solution.error ∨
          ((∃ e, solution.error = some e ∧ e.blamesEntity = true) ↔ ¬ c.Fits s.geometry) ∧
          ∀ e, solution.error = some e → e.blamesEntity = true ∨ e.blamesLength = true))
      (solveOrder s.constraints) (s.solve observer now).answer := by
  intro s
  have hsound : s.Sound := sound_after before (sound_ofSettings h) operations
  refine ⟨hsound, solveOrder_perm _, (solve_blames observer now hsound).imp fun c solution hblames => ?_⟩
  exact ⟨hblames.1, hblames.2.imp_right fun hown => ⟨hown.entity_iff, fun _ => hown.entity_or_length⟩⟩

/-- A line that is fixed where it is, and then gone: the constraint is sound, and the solve says what is
missing. -/
theorem run_sound_gone :
    let start : Session := { solver := ⟨{}⟩, suggestions := {}, series := default }
    let line : Snapshot := .ofList [(⟨⟨1⟩⟩, .line ⟨0.0, 0.0⟩ ⟨2.0, 1.0⟩)]
    let s := start.after .silent
      [(default, .replaceGeometry line), (default, .create { kind := .fix, entities := [⟨⟨1⟩⟩] }),
        (default, .replaceGeometry .empty)]
    ofSettings {} default false = .ok start ∧ s.constraints.length = 1 ∧ (∀ c ∈ s.constraints, c.Sound) ∧
      (s.solve .silent default).answer.map (·.error) = [some (.entityNotFound ⟨⟨1⟩⟩)] := by
  intro start line s
  have hstart : ofSettings {} default false = .ok start := rfl
  exact ⟨hstart, by decide +kernel, (run_sound hstart .silent _ .silent default).1, by decide +kernel⟩

end Session

end Drafting
