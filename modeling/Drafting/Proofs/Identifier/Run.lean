import Drafting.Proofs.Identifier.Series

/-! What runs do with handles.

A step that goes through a handle needs a handle that is there (`Legal`), and
nothing else can stop a run (`exists_runs_iff`). A handle keeps the series it came in
with (`Runs.handle`), so the handles in the end tell which series each identifier was
drawn from, and what is drawn from one series are the next identifiers of that series
in order, whatever is drawn from others in between (`Runs.numbered`). -/
namespace Drafting.Issuers

namespace Step

/-- The step brings a handle in. -/
def makes : Step → Bool
  | .draw _ => false
  | _ => true

/-- The handle that the step draws through. -/
def drawn? : Step → Option Nat
  | .draw h => some h
  | _ => none

end Step

/-- The steps that brought handles in: the first one brought in handle 0, the next one handle 1. -/
def makers (steps : List Step) : List Step := steps.filter (·.makes)

/-- No step goes through a handle that is not there by then; `count` of them are there at first. -/
def Legal (count : Nat) : List Step → Prop
  | [] => True
  | .start _ :: rest => Legal (count + 1) rest
  | .share h :: rest => h < count ∧ Legal (count + 1) rest
  | .draw h :: rest => h < count ∧ Legal count rest

instance decidableLegal : (count : Nat) → (steps : List Step) → Decidable (Legal count steps)
  | _, [] => .isTrue trivial
  | count, .start _ :: rest => decidableLegal (count + 1) rest
  | count, .share h :: rest => @instDecidableAnd (h < count) _ _ (decidableLegal (count + 1) rest)
  | count, .draw h :: rest => @instDecidableAnd (h < count) _ _ (decidableLegal count rest)

variable {i i' : Issuers} {step : Step} {steps : List Step} {drawn : List (Nat × ConstraintId)}

/-! ### One step -/

/-- What a step does. -/
inductive Takes (i : Issuers) : Step → List (Nat × ConstraintId) → Issuers → Prop where
  | start {seed : String} : Takes i (.start seed) [] (i.add (.ofSeed seed))
  | share {h s : Nat} (hs : i.handles[h]? = some s) : Takes i (.share h) [] { i with handles := i.handles ++ [s] }
  | draw {h s : Nat} {t : Series} (hs : i.handles[h]? = some s) (ht : i.series[s]? = some t) :
    Takes i (.draw h) [(h, t.next)] { i with series := i.series.set s t.advance }

theorem step?_eq_some_iff : i.step? step = some (drawn, i') ↔ Takes i step drawn i' := by
  constructor
  · intro h
    cases step with
    | start seed =>
      obtain ⟨rfl, rfl⟩ := Prod.mk.inj (Option.some.inj h)
      exact .start
    | share handle =>
      obtain ⟨_, hshared, heq⟩ := Option.map_eq_some_iff.mp h
      obtain ⟨s, hs, rfl⟩ := Option.map_eq_some_iff.mp hshared
      obtain ⟨rfl, rfl⟩ := Prod.mk.inj heq
      exact .share hs
    | draw handle =>
      obtain ⟨_, hone, heq⟩ := Option.map_eq_some_iff.mp h
      simp only [draw?, Option.bind_eq_bind, Option.bind_eq_some_iff, Option.pure_def, Option.some.injEq] at hone
      obtain ⟨s, hs, t, ht, rfl⟩ := hone
      obtain ⟨rfl, rfl⟩ := Prod.mk.inj heq
      exact .draw hs ht
  · rintro (_ | hs | ⟨hs, ht⟩)
    · rfl
    · simp [step?, share?, hs]
    · simp [step?, draw?, hs, ht]

namespace Takes

theorem length_handles (h : Takes i step drawn i') : i'.handles.length = i.handles.length + (makers [step]).length := by
  cases h <;> simp [add, makers, Step.makes]

/-- A handle keeps its series. -/
theorem handle (h : Takes i step drawn i') {k s : Nat} (hk : i.handles[k]? = some s) : i'.handles[k]? = some s := by
  obtain ⟨hlt, rfl⟩ := List.getElem?_eq_some_iff.mp hk
  cases h <;> simp [add, List.getElem?_append_left hlt]

theorem map_fst (h : Takes i step drawn i') : drawn.map (·.1) = [step].filterMap Step.drawn? := by
  cases h <;> rfl

end Takes

/-- Each handle is on a series that there is. -/
def Sound (i : Issuers) : Prop := ∀ s ∈ i.handles, s < i.series.length

theorem sound_empty : Sound empty := fun _ h => absurd h List.not_mem_nil

theorem Takes.sound (h : Takes i step drawn i') (hi : i.Sound) : i'.Sound := by
  cases h with
  | start =>
    intro s hs
    rw [add, List.length_append, List.length_singleton]
    rcases List.mem_append.mp hs with hold | hnew
    · exact Nat.lt_succ_of_lt (hi s hold)
    · rw [List.mem_singleton.mp hnew]
      exact Nat.lt_succ_self _
  | share hs =>
    intro s' hs'
    rcases List.mem_append.mp hs' with hold | hnew
    · exact hi s' hold
    · exact hi s' (List.mem_singleton.mp hnew ▸ List.mem_of_getElem? hs)
  | draw => simpa [Sound] using hi

/-! ### Runs -/

/-- What steps do one after the other. -/
inductive Runs : Issuers → List Step → List (Nat × ConstraintId) → Issuers → Prop where
  | nil {i : Issuers} : Runs i [] [] i
  | cons {i i₁ i' : Issuers} {step : Step} {rest : List Step} {first others : List (Nat × ConstraintId)}
    (hstep : Takes i step first i₁) (hrest : Runs i₁ rest others i') : Runs i (step :: rest) (first ++ others) i'

theorem run?_eq_some_iff : i.run? steps = some (drawn, i') ↔ Runs i steps drawn i' := by
  constructor
  · intro h
    induction steps generalizing i drawn with
    | nil =>
      obtain ⟨rfl, rfl⟩ := Prod.mk.inj (Option.some.inj h)
      exact .nil
    | cons step rest ih =>
      simp only [run?, Option.bind_eq_bind, Option.bind_eq_some_iff, Option.pure_def, Option.some.injEq,
        Prod.mk.injEq] at h
      obtain ⟨⟨first, i₁⟩, hstep, ⟨others, _⟩, hrest, rfl, rfl⟩ := h
      exact .cons (step?_eq_some_iff.mp hstep) (ih hrest)
  · intro h
    induction h with
    | nil => rfl
    | cons hstep _ ih => simp [run?, step?_eq_some_iff.mpr hstep, ih]

/-- A step can be taken, and the rest of the run is legal afterwards, exactly if all of it is legal before. -/
theorem exists_takes_iff (hi : i.Sound) (rest : List Step) :
    (∃ drawn i', Takes i step drawn i' ∧ Legal i'.handles.length rest) ↔ Legal i.handles.length (step :: rest) := by
  constructor
  · rintro ⟨_, _, hstep, hlegal⟩
    cases hstep with
    | start => rwa [add, List.length_append] at hlegal
    | share hs => exact ⟨(List.getElem?_eq_some_iff.mp hs).1, by rwa [List.length_append] at hlegal⟩
    | draw hs _ => exact ⟨(List.getElem?_eq_some_iff.mp hs).1, hlegal⟩
  · intro h
    cases step with
    | start => exact ⟨_, _, .start, by rwa [add, List.length_append]⟩
    | share => exact ⟨_, _, .share (List.getElem?_eq_getElem h.1), by rw [List.length_append]; exact h.2⟩
    | draw =>
      have hs := List.getElem?_eq_getElem (hi _ (List.getElem_mem h.1))
      exact ⟨_, _, .draw (List.getElem?_eq_getElem h.1) hs, h.2⟩

/-- **A run is stopped by a handle that is not there, and by nothing else.** -/
theorem exists_runs_iff (hi : i.Sound) : (∃ drawn i', Runs i steps drawn i') ↔ Legal i.handles.length steps := by
  induction steps generalizing i with
  | nil => exact ⟨fun _ => trivial, fun _ => ⟨_, _, .nil⟩⟩
  | cons step rest ih =>
    rw [← exists_takes_iff hi]
    constructor
    · rintro ⟨_, _, _ | ⟨hstep, hrest⟩⟩
      exact ⟨_, _, hstep, (ih (hstep.sound hi)).mp ⟨_, _, hrest⟩⟩
    · rintro ⟨_, _, hstep, hlegal⟩
      obtain ⟨_, _, hrest⟩ := (ih (hstep.sound hi)).mpr hlegal
      exact ⟨_, _, .cons hstep hrest⟩

namespace Runs

/-- A run can be cut in two. -/
theorem split {before after : List Step} (h : Runs i (before ++ after) drawn i') :
    ∃ d₁ i₁ d₂, Runs i before d₁ i₁ ∧ Runs i₁ after d₂ i' ∧ drawn = d₁ ++ d₂ := by
  induction before generalizing i drawn with
  | nil => exact ⟨[], i, drawn, .nil, h, rfl⟩
  | cons step rest ih =>
    cases h with
    | cons hstep hrest =>
      obtain ⟨d₁, i₁, d₂, h₁, h₂, rfl⟩ := ih hrest
      exact ⟨_, i₁, d₂, .cons hstep h₁, h₂, (List.append_assoc ..).symm⟩

theorem length_handles (h : Runs i steps drawn i') : i'.handles.length = i.handles.length + (makers steps).length := by
  induction h with
  | nil => rfl
  | @cons i i₁ i' step rest _ _ hstep _ ih =>
    rw [ih, hstep.length_handles, Nat.add_assoc, ← List.length_append]
    exact congrArg (i.handles.length + List.length ·) (List.filter_append [step] rest).symm

theorem handle (h : Runs i steps drawn i') {k s : Nat} (hk : i.handles[k]? = some s) : i'.handles[k]? = some s := by
  induction h with
  | nil => exact hk
  | cons hstep _ ih => exact ih (hstep.handle hk)

theorem sound (h : Runs i steps drawn i') (hi : i.Sound) : i'.Sound := by
  induction h with
  | nil => exact hi
  | cons hstep _ ih => exact ih (hstep.sound hi)

/-- Each draw gives an identifier, in the order of the draws. -/
theorem map_fst (h : Runs i steps drawn i') : drawn.map (·.1) = steps.filterMap Step.drawn? := by
  induction h with
  | nil => rfl
  | @cons _ _ _ step rest _ _ hstep _ ih =>
    rw [List.map_append, hstep.map_fst, ih, ← List.filterMap_append, List.singleton_append]

/-- What is drawn is drawn through a handle that is there. -/
theorem exists_handle (h : Runs i steps drawn i') {d : Nat × ConstraintId} (hd : d ∈ drawn) :
    ∃ s, i'.handles[d.1]? = some s := by
  induction h with
  | nil => exact absurd hd List.not_mem_nil
  | cons hstep hrest ih =>
    rcases List.mem_append.mp hd with hfirst | hothers
    · cases hstep with
      | draw hs _ =>
        obtain rfl := List.mem_singleton.mp hfirst
        exact ⟨_, hrest.handle hs⟩
      | _ => exact absurd hfirst List.not_mem_nil
    · exact ih hothers

end Runs

/-- The identifiers of `drawn` that are drawn through handles with `p`. -/
def through (p : Nat → Prop) [DecidablePred p] (drawn : List (Nat × ConstraintId)) : List ConstraintId :=
  (drawn.filter (p ·.1)).map (·.2)

/-- **A series gives its identifiers in order,** through whichever handles, and no draw from another series matters. -/
theorem Runs.numbered (h : Runs i steps drawn i') {s : Nat} {t : Series} (ht : i.series[s]? = some t) :
    ∃ n, through (i'.handles[·]? = some s) drawn = t.take n ∧ i'.series[s]? = some (t.drop n) := by
  induction h generalizing t with
  | nil => exact ⟨0, rfl, ht⟩
  | cons hstep hrest ih =>
    cases hstep with
    | start =>
      refine ih ?_
      rwa [add, List.getElem?_append_left (List.getElem?_eq_some_iff.mp ht).1]
    | share _ => exact ih ht
    | @draw handle s' t' hs' ht' =>
      have hhandle := hrest.handle hs'
      -- A draw from `s` gives the first of the numbers that are left; any other draw leaves `s` alone.
      by_cases hsame : s' = s
      · subst hsame
        obtain rfl : t' = t := Option.some.inj (ht'.symm.trans ht)
        obtain ⟨n, htake, hdrop⟩ := ih (List.getElem?_set_self (List.getElem?_eq_some_iff.mp ht).1)
        refine ⟨n + 1, ?_, hdrop.trans (congrArg some (t'.drop_advance n))⟩
        rw [Series.take_succ, ← htake]
        simp [through, hhandle]
      · obtain ⟨n, htake, hdrop⟩ := ih ((List.getElem?_set_ne hsame).trans ht)
        refine ⟨n, ?_, hdrop⟩
        rw [← htake]
        simp [through, hhandle, hsame]

/-- Many identifiers at once are as many draws. -/
theorem drawMany?_eq_run? {h : Nat} (hh : h < i.handles.length) (n : Nat) :
    i.drawMany? h n = (i.run? (List.replicate n (.draw h))).map fun (drawn, i') => (drawn.map (·.2), i') := by
  induction n generalizing i with
  | zero => simp [drawMany?, run?, hh]
  | succ n ih =>
    rw [List.replicate_succ, drawMany?, run?, step?]
    cases hone : i.draw? h with
    | none => rfl
    | some first =>
      have hlength : i.handles.length = first.2.handles.length := by
        have hstep : i.step? (.draw h) = some ([(h, first.1)], first.2) := by rw [step?, hone]; rfl
        exact (step?_eq_some_iff.mp hstep).length_handles.symm
      cases hrest : first.2.run? (List.replicate n (.draw h)) <;> simp [ih (hlength ▸ hh), hrest]

end Drafting.Issuers
