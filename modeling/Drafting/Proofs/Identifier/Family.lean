import Drafting.Proofs.Identifier.Run

/-! Families of handles.

A handle that is started founds a family, and clones, direct or not, belong to it
(`Family`). The family is what shares the founder's series: a clone is on the series
of what it is a clone of, and a founder's series is one that no older handle is on
(`Runs.family_iff`). So what a family draws are the identifiers of its seed from
number zero on (`Runs.through_family`). -/
namespace Drafting.Issuers

/-- The handle `root`, its clones, their clones and so on, where `made` are the steps that brought the handles in. A
clone comes in later than what it is a clone of, and so has a higher number. -/
inductive Family (made : List Step) (root : Nat) : Nat → Prop where
  | root : Family made root root
  | clone {h k : Nat} (hmade : made[k]? = some (.share h)) (hlt : h < k) (hh : Family made root h) : Family made root k

theorem family_iff_root_or_clone {made : List Step} {root k : Nat} :
    Family made root k ↔ k = root ∨ ∃ h, ∃ _ : h < k, made[k]? = some (.share h) ∧ Family made root h := by
  constructor
  · rintro (_ | ⟨hmade, hlt, hh⟩)
    · exact .inl rfl
    · exact .inr ⟨_, hlt, hmade, hh⟩
  · rintro (rfl | ⟨h, hlt, hmade, hh⟩)
    · exact .root
    · exact .clone hmade hlt hh

instance decidableFamily (made : List Step) (root k : Nat) : Decidable (Family made root k) :=
  have hclone (h : Nat) (_ : h < k) : Decidable (made[k]? = some (.share h) ∧ Family made root h) :=
    have := decidableFamily made root h
    inferInstance
  have := @Nat.decidableExistsLT' k _ hclone
  decidable_of_decidable_of_iff family_iff_root_or_clone.symm

/-! ### Who made a handle -/

variable {steps : List Step} {drawn : List (Nat × ConstraintId)} {final : Issuers}

/-- A handle came in at some point of the run, when the handles with lower numbers were there. -/
theorem exists_split_of_makers {k : Nat} {step : Step} (h : (makers steps)[k]? = some step) :
    ∃ before after, steps = before ++ step :: after ∧ (makers before).length = k := by
  induction steps generalizing k with
  | nil => cases h
  | cons first rest ih =>
    by_cases hmakes : first.makes
    · rw [makers, List.filter_cons_of_pos hmakes] at h
      cases k with
      | zero => exact ⟨[], rest, by rw [Option.some.inj h, List.nil_append], rfl⟩
      | succ k =>
        obtain ⟨before, after, rfl, rfl⟩ := ih h
        exact ⟨first :: before, after, rfl, by rw [makers, List.filter_cons_of_pos hmakes]; rfl⟩
    · rw [makers, List.filter_cons_of_neg hmakes] at h
      obtain ⟨before, after, rfl, rfl⟩ := ih h
      exact ⟨first :: before, after, rfl, by rw [makers, List.filter_cons_of_neg hmakes]; rfl⟩

theorem makes_of_getElem? {k : Nat} {step : Step} (h : (makers steps)[k]? = some step) : step.makes = true :=
  (List.mem_filter.mp (List.mem_of_getElem? h)).2

namespace Runs

variable (h : Runs empty steps drawn final)
include h

theorem length_eq : final.handles.length = (makers steps).length :=
  h.length_handles.trans (Nat.zero_add _)

/-- A clone is on the series of what it is a clone of. -/
theorem shared {k parent : Nat} (hmade : (makers steps)[k]? = some (.share parent)) :
    parent < k ∧ ∃ s, final.handles[parent]? = some s ∧ final.handles[k]? = some s := by
  obtain ⟨before, after, rfl, rfl⟩ := exists_split_of_makers hmade
  obtain ⟨_, i, _, hbefore, _ | ⟨hstep, hafter⟩, rfl⟩ := h.split
  have hlength := hbefore.length_eq
  cases hstep with
  | @share _ s hs =>
    refine ⟨hlength ▸ (List.getElem?_eq_some_iff.mp hs).1, s, ?_, ?_⟩
    · exact hafter.handle ((List.getElem?_append_left (List.getElem?_eq_some_iff.mp hs).1).trans hs)
    · exact hafter.handle (hlength ▸ List.getElem?_concat_length)

/-- A founder is on a series that no older handle is on, and what is drawn from it are the identifiers of the seed
from number zero on. -/
theorem started {root : Nat} {seed : String} (hmade : (makers steps)[root]? = some (.start seed)) :
    ∃ s, final.handles[root]? = some s ∧ (∀ k < root, final.handles[k]? ≠ some s) ∧
      ∃ n, through (final.handles[·]? = some s) drawn = (Series.ofSeed seed).take n := by
  obtain ⟨before, after, rfl, rfl⟩ := exists_split_of_makers hmade
  obtain ⟨d, i, _, hbefore, _ | ⟨hstep, hafter⟩, rfl⟩ := h.split
  cases hstep with
  | start =>
    have holder : ∀ {k s : Nat}, i.handles[k]? = some s → final.handles[k]? ≠ some i.series.length := by
      intro k s hs heq
      have hsame := (hafter.handle (Takes.start.handle hs)).symm.trans heq
      have hlt := hbefore.sound sound_empty s (List.mem_of_getElem? hs)
      exact absurd (Option.some.inj hsame) (Nat.ne_of_lt hlt)
    refine ⟨i.series.length, hafter.handle (hbefore.length_eq ▸ List.getElem?_concat_length), fun k hk => ?_, ?_⟩
    · exact holder (List.getElem?_eq_getElem (hbefore.length_eq ▸ hk))
    · obtain ⟨n, htake, _⟩ := hafter.numbered (t := .ofSeed seed) (List.getElem?_concat_length ..)
      have hnone : d.filter (final.handles[·.1]? = some i.series.length) = [] := by
        refine List.filter_eq_nil_iff.mpr fun e he => ?_
        obtain ⟨s, hs⟩ := hbefore.exists_handle he
        simpa using holder hs
      refine ⟨n, ?_⟩
      rw [← htake, List.nil_append, through, List.filter_append, hnone, List.nil_append, through]

/-- **The family is what shares the founder's series.** -/
theorem family_iff {root s : Nat} {seed : String} (hmade : (makers steps)[root]? = some (.start seed))
    (hs : final.handles[root]? = some s) (k : Nat) : Family (makers steps) root k ↔ final.handles[k]? = some s := by
  constructor
  · intro hfamily
    induction hfamily with
    | root => exact hs
    | clone hclone _ _ ih =>
      obtain ⟨_, s', hparent, hk⟩ := h.shared hclone
      exact hk.trans (hparent.symm.trans ih)
  · -- Down the line of clones to a founder, and the only founder on the series is the root.
    induction k using Nat.strong_induction_on with
    | _ k ih =>
      intro hk
      have hlt : k < (makers steps).length := h.length_eq ▸ (List.getElem?_eq_some_iff.mp hk).1
      have hmaker := List.getElem?_eq_getElem hlt
      cases hstep : (makers steps)[k] with
      | share parent =>
        rw [hstep] at hmaker
        obtain ⟨hparent, s', hs', hk'⟩ := h.shared hmaker
        exact .clone hmaker hparent (ih parent hparent (hs'.trans (hk'.symm.trans hk)))
      | start seed' =>
        rw [hstep] at hmaker
        obtain ⟨s₁, hs₁, hold₁, _⟩ := h.started hmade
        obtain ⟨s₂, hs₂, hold₂, _⟩ := h.started hmaker
        obtain rfl : s₁ = s := Option.some.inj (hs₁.symm.trans hs)
        obtain rfl : s₂ = s₁ := Option.some.inj (hs₂.symm.trans hk)
        rcases Nat.lt_trichotomy k root with hlt | rfl | hgt
        · exact absurd hk (hold₁ k hlt)
        · exact .root
        · exact absurd hs (hold₂ root hgt)
      | draw _ =>
        rw [hstep] at hmaker
        cases makes_of_getElem? hmaker

/-- **A family draws the identifiers of its seed, from number zero on.** -/
theorem through_family {root : Nat} {seed : String} (hmade : (makers steps)[root]? = some (.start seed)) :
    let ids := through (Family (makers steps) root) drawn
    ids = (Series.ofSeed seed).take ids.length := by
  intro ids
  obtain ⟨s, hs, _, n, htake⟩ := h.started hmade
  have hids : ids = (Series.ofSeed seed).take n := by
    rw [← htake]
    simp only [ids, through, h.family_iff hmade hs]
  rw [hids, Series.length_take]

end Runs

/-! ### Without the draws of other families -/

/-- The step is no draw through a handle outside of the family. -/
def spares (made : List Step) (root : Nat) (step : Step) : Bool := step.drawn?.all fun h => Family made root h

theorem spares_of_makes {made : List Step} {root : Nat} {step : Step} (h : step.makes) : spares made root step := by
  cases step with
  | draw _ => cases h
  | _ => rfl

theorem makers_filter {p : Step → Bool} (hp : ∀ step : Step, step.makes → p step) (steps : List Step) :
    makers (steps.filter p) = makers steps := by
  rw [makers, List.filter_filter]
  refine List.filter_congr fun step _ => ?_
  cases hmakes : step.makes with
  | false => rfl
  | true => rw [hp step hmakes, Bool.and_self]

theorem Legal.filter {p : Step → Bool} (hp : ∀ step : Step, step.makes → p step) {count : Nat} (h : Legal count steps) :
    Legal count (steps.filter p) := by
  induction steps generalizing count with
  | nil => trivial
  | cons step rest ih =>
    cases step with
    | start seed =>
      rw [List.filter_cons_of_pos (hp _ rfl)]
      exact ih h
    | share handle =>
      rw [List.filter_cons_of_pos (hp _ rfl)]
      exact ⟨h.1, ih h.2⟩
    | draw handle =>
      by_cases hkept : p (.draw handle)
      · rw [List.filter_cons_of_pos hkept]
        exact ⟨h.1, ih h.2⟩
      · rw [List.filter_cons_of_neg hkept]
        exact ih h.2

theorem drawn_filter_spares (made : List Step) (root : Nat) (steps : List Step) :
    (steps.filter (spares made root)).filterMap Step.drawn? =
      (steps.filterMap Step.drawn?).filter (Family made root ·) := by
  rw [List.filterMap_filter, List.filter_filterMap]
  refine List.filterMap_congr fun step _ => ?_
  cases step <;> simp [spares, Step.drawn?, Option.filter]

/-- Other families may as well draw nothing. -/
theorem Runs.without_others (h : Runs empty steps drawn final) {root : Nat} {seed : String}
    (hmade : (makers steps)[root]? = some (.start seed)) :
    ∃ final', Runs empty (steps.filter (spares (makers steps) root)) (drawn.filter (Family (makers steps) root ·.1))
      final' := by
  have hspares : ∀ step : Step, step.makes → spares (makers steps) root step := fun _ => spares_of_makes
  have hlegal : Legal 0 steps := (exists_runs_iff sound_empty).mp ⟨_, _, h⟩
  obtain ⟨drawn', final', h'⟩ := (exists_runs_iff sound_empty).mpr (hlegal.filter hspares)
  have hhandles : drawn'.map (·.1) = (drawn.filter (Family (makers steps) root ·.1)).map (·.1) := by
    rw [h'.map_fst, drawn_filter_spares, ← h.map_fst, List.filter_map]
    rfl
  have hall : drawn'.filter (Family (makers steps) root ·.1) = drawn' := by
    refine List.filter_eq_self.mpr fun d hd => ?_
    obtain ⟨d', hd', heq⟩ := List.mem_map.mp (hhandles ▸ List.mem_map_of_mem hd)
    exact heq ▸ (List.mem_filter.mp hd').2
  have hids := h.through_family hmade
  have hids' := h'.through_family (makers_filter hspares steps ▸ hmade)
  rw [makers_filter hspares, through, hall] at hids'
  have hcount : (drawn'.map (·.2)).length = (through (Family (makers steps) root) drawn).length := by
    rw [List.length_map, ← List.length_map (·.1), hhandles, through, List.length_map, List.length_map]
  have hsame : drawn'.map (·.2) = through (Family (makers steps) root) drawn := by rw [hids', hcount, ← hids]
  have hdrawn : drawn' = drawn.filter (Family (makers steps) root ·.1) :=
    (List.zip_of_prod hhandles hsame).trans (List.zip_of_prod rfl rfl).symm
  exact ⟨final', hdrawn ▸ h'⟩

/-- **Each family of handles counts on its own, and all its handles count together.** A run in which every handle is
made before it is used takes place, and each draw of it gives an identifier. What a family draws, through whichever of
its handles, are the identifiers of the numbers zero, one, two and so on in the name space of the founder's seed; they
differ if there are less than 2⁶⁴ draws and the hash function tells the numbers apart. The family draws the same if
all others draw nothing; and of two families with one seed, in this run or in another, the one that draws less draws
what the other draws first. -/
theorem run_counts_families {steps : List Step} (hlegal : Legal 0 steps) :
    ∃ drawn final, empty.run? steps = some (drawn, final) ∧ drawn.map (·.1) = steps.filterMap Step.drawn? ∧
      ∀ root seed, (makers steps)[root]? = some (.start seed) →
        let space := Uuid.named .objects seed.toUTF8.toList
        let ids := through (Family (makers steps) root) drawn
        ids = (List.range ids.length).map (fun n => ⟨.named space (Sha1.bigEndian 8 n)⟩) ∧
        (drawn.length < 2 ^ 64 → Set.InjOn (Uuid.named space) (Sha1.bigEndian 8 '' Set.Iio ids.length) → ids.Nodup) ∧
        (∃ final', empty.run? (steps.filter (spares (makers steps) root)) =
          some (drawn.filter (Family (makers steps) root ·.1), final')) ∧
        ∀ steps' drawn' final' root', empty.run? steps' = some (drawn', final') →
          (makers steps')[root']? = some (.start seed) →
          let ids' := through (Family (makers steps') root') drawn'
          ids.length ≤ ids'.length → ids <+: ids' := by
  obtain ⟨drawn, final, h⟩ := (exists_runs_iff sound_empty).mpr hlegal
  refine ⟨drawn, final, run?_eq_some_iff.mpr h, h.map_fst, fun root seed hmade => ?_⟩
  intro space ids
  have hids : ids = (Series.ofSpace space).take ids.length := h.through_family hmade
  refine ⟨hids.trans (Series.take_ofSpace ..), ?nodup, ?alone, ?twin⟩
  case nodup =>
    intro hcount hinjective
    have hlength : ids.length ≤ drawn.length := (List.length_map ..).trans_le (List.length_filter_le ..)
    rw [hids]
    exact Series.nodup_take (Series.distinct_of_injOn (hlength.trans hcount.le) hinjective)
  case alone =>
    obtain ⟨final', h'⟩ := h.without_others hmade
    exact ⟨final', run?_eq_some_iff.mpr h'⟩
  case twin =>
    intro steps' drawn' final' root' hrun' hmade' ids' hle
    have hids' : ids' = (Series.ofSpace space).take ids'.length :=
      (run?_eq_some_iff.mp hrun').through_family hmade'
    rw [hids, hids', ← Nat.add_sub_of_le hle, Series.take_add]
    exact List.prefix_append ..

/-- Two generators of one seed, with a clone of the first one and a clone of that: the first family draws through all
of its three handles, with draws of the second one in between. -/
theorem run_counts_families_twins :
    let steps : List Step := [.start "Drawing1", .start "Drawing1", .share 0, .draw 2, .draw 1, .share 2, .draw 0,
      .draw 3, .draw 1]
    let space := Uuid.named .objects "Drawing1".toUTF8.toList
    let drawn := [(2, Series.nth space 0), (1, Series.nth space 0), (0, Series.nth space 1), (3, Series.nth space 2),
      (1, Series.nth space 1)]
    let ids := through (Family (makers steps) 0) drawn
    Legal 0 steps ∧ (makers steps)[0]? = some (.start "Drawing1") ∧ (makers steps)[1]? = some (.start "Drawing1") ∧
      drawn.length < 2 ^ 64 ∧ Set.InjOn (Uuid.named space) (Sha1.bigEndian 8 '' Set.Iio ids.length) ∧
      (∃ final, empty.run? steps = some (drawn, final)) ∧
      ids = [Series.nth space 0, Series.nth space 1, Series.nth space 2] ∧ ids.Nodup ∧
      (∃ final, empty.run? (steps.filter (spares (makers steps) 0)) =
        some ([(2, Series.nth space 0), (0, Series.nth space 1), (3, Series.nth space 2)], final)) ∧
      through (Family (makers steps) 1) drawn <+: ids := by
  intro steps space drawn ids
  have hlegal : Legal 0 steps := by decide
  have hmembers : Family (makers steps) 0 2 ∧ ¬ Family (makers steps) 0 1 ∧ Family (makers steps) 0 0 ∧
      Family (makers steps) 0 3 := by decide +kernel
  obtain ⟨h₂, h₁, h₀, h₃⟩ := hmembers
  have hown : drawn.filter (Family (makers steps) 0 ·.1) =
      [(2, Series.nth space 0), (0, Series.nth space 1), (3, Series.nth space 2)] := by
    simp only [drawn, List.filter, h₂, h₁, h₀, h₃, decide_true, decide_false]
  have hids : ids = [Series.nth space 0, Series.nth space 1, Series.nth space 2] := congrArg (List.map Prod.snd) hown
  have hinjective : Set.InjOn (Uuid.named space) (Sha1.bigEndian 8 '' Set.Iio ids.length) := by
    have hdistinct : Series.Distinct space 3 := by decide +kernel
    rw [hids]
    rintro _ ⟨i, hi, rfl⟩ _ ⟨j, hj, rfl⟩ heq
    exact congrArg (Sha1.bigEndian 8) (hdistinct i hi j hj (congrArg ConstraintId.mk heq))
  obtain ⟨drawn', final, hrun, _, hfamilies⟩ := run_counts_families hlegal
  obtain rfl : drawn' = drawn := by
    have hrun' : empty.run? steps = some (drawn, ⟨[⟨space, 3⟩, ⟨space, 2⟩], [0, 1, 0, 0]⟩) := rfl
    exact congrArg Prod.fst (Option.some.inj (hrun.symm.trans hrun'))
  obtain ⟨_, hnodup, halone, _⟩ := hfamilies 0 "Drawing1" rfl
  obtain ⟨_, _, _, htwin⟩ := hfamilies 1 "Drawing1" rfl
  exact ⟨hlegal, rfl, rfl, by decide, hinjective, ⟨final, hrun⟩, hids, hnodup (by decide) hinjective, hown ▸ halone,
    htwin steps drawn final 0 hrun rfl (by decide +kernel)⟩

end Drafting.Issuers
