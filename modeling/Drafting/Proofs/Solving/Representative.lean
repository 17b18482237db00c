import Drafting.Proofs.Solving.Duplicates

/-! One of each group is not redundant.

To be a duplicate is to ask the same (`Constraint.duplicates_iff_asksSame`): for
the same kind, with the same parameters, of the same entities as often. Where two
ask the same of a third they ask the same of each other, whatever their numbers
are, so the places of a list fall into groups, and the first place of each group is
the only one without an earlier one that asks the same (`existsUnique_first`). A
report lists the places that are not the first of their groups, in their order, each
with the first (`Redundancy.exists_lists`). So without what it lists, one of each
group is left (`Solver.run_representatives`).

A constraint with a parameter that is not a number does not ask the same as itself, nor
as any other. It is a group of its own. -/
namespace Drafting

/-! ### Comparing equal -/

section Pairs
variable {x x' x'' y y' y'' : Float}

theorem beq_pair_symm (h : (x == x' && y == y') = true) : (x' == x && y' == y) = true := by
  obtain ⟨hx, hy⟩ := Bool.and_eq_true_iff.mp h
  exact Bool.and_eq_true_iff.mpr ⟨Number.beq_symm hx, Number.beq_symm hy⟩

theorem beq_pair_trans (h : (x == x' && y == y') = true) (h' : (x' == x'' && y' == y'') = true) :
    (x == x'' && y == y'') = true := by
  obtain ⟨hx, hy⟩ := Bool.and_eq_true_iff.mp h
  obtain ⟨hx', hy'⟩ := Bool.and_eq_true_iff.mp h'
  exact Bool.and_eq_true_iff.mpr ⟨Number.beq_trans hx hx', Number.beq_trans hy hy'⟩

end Pairs

namespace ParameterValue

variable {u v w : ParameterValue}

theorem agrees_symm (h : v.agrees w = true) : w.agrees v = true := by
  cases v <;> cases w <;> try cases h
  case number.number => exact Number.beq_symm h
  case point.point | vector.vector => exact beq_pair_symm h

theorem agrees_trans (h : u.agrees v = true) (h' : v.agrees w = true) : u.agrees w = true := by
  cases u <;> cases v <;> (try cases h) <;> cases w <;> try cases h'
  case number.number.number => exact Number.beq_trans h h'
  case point.point.point | vector.vector.vector => exact beq_pair_trans h h'

end ParameterValue

section Rel
variable {α : Type} {r : α → α → Prop} {x y z : Option α}

theorem rel_symm (hr : ∀ {a b}, r a b → r b a) (h : Option.Rel r x y) : Option.Rel r y x := by
  cases h with
  | none => exact .none
  | some hab => exact .some (hr hab)

theorem rel_trans (hr : ∀ {a b c}, r a b → r b c → r a c) (h : Option.Rel r x y) (h' : Option.Rel r y z) :
    Option.Rel r x z := by
  cases h with
  | none => exact h'
  | some hab => cases h' with
    | some hbc => exact .some (hr hab hbc)

theorem isSome_eq_of_rel (h : Option.Rel r x y) : x.isSome = y.isSome := by
  cases h <;> rfl

end Rel

/-- Tables that have related values under every key, or none under either, match. -/
theorem Table.matchesBy_of_rel {κ ν : Type} [DecidableEq κ] {r : ν → ν → Bool} {s t : Table κ ν}
    (h : ∀ k, Option.Rel (fun a b => r a b = true) (s.get? k) (t.get? k)) : s.matchesBy r t = true := by
  have hmem (k : κ) : k ∈ s.keys ↔ k ∈ t.keys := by
    show k ∈ s ↔ k ∈ t
    rw [mem_iff, mem_iff, isSome_eq_of_rel (h k)]
  have hsize : s.size = t.size := by
    simpa [keys, size] using ((List.perm_ext_iff_of_nodup s.nodup_keys t.nodup_keys).mpr hmem).length_eq
  refine Bool.and_eq_true_iff.mpr ⟨beq_iff_eq.mpr hsize, List.all_eq_true.mpr fun e he => ?_⟩
  have hfound := h e.1
  rw [get?_eq_some_iff.mpr he] at hfound
  generalize t.get? e.1 = found at hfound ⊢
  cases hfound with
  | some hr => rw [Option.any_some, hr]

/-! ### Asking the same -/

namespace Constraint

/-- Both constraints ask the same of the same entities. -/
structure AsksSame (c d : Constraint) : Prop where
  kind : c.kind = d.kind
  /-- They have the same parameters, with values that compare equal. -/
  parameters : ∀ key,
    Option.Rel (fun v w => ParameterValue.agrees v w = true) (c.parameters.get? key) (d.parameters.get? key)
  /-- They have the same entities as often, in any order. -/
  entities : c.entities.Perm d.entities

variable {b c d : Constraint}

theorem duplicates_iff_asksSame : c.duplicates d = true ↔ c.AsksSame d := by
  rw [duplicates_iff]
  constructor
  · intro ⟨hkind, hparameters, hentities⟩
    exact ⟨hkind, Table.rel_of_matchesBy hparameters, hentities⟩
  · intro h
    exact ⟨h.kind, Table.matchesBy_of_rel h.parameters, h.entities⟩

theorem AsksSame.symm (h : c.AsksSame d) : d.AsksSame c :=
  ⟨h.kind.symm, fun key => rel_symm ParameterValue.agrees_symm (h.parameters key), h.entities.symm⟩

theorem AsksSame.trans (h : b.AsksSame c) (h' : c.AsksSame d) : b.AsksSame d :=
  ⟨h.kind.trans h'.kind, fun key => rel_trans ParameterValue.agrees_trans (h.parameters key) (h'.parameters key),
    h.entities.trans h'.entities⟩

end Constraint

/-! ### Places of a list -/

/-- What stands at one place of a list asks the same as what stands at another. -/
def RepeatsAt (l : List Constraint) (i j : Nat) : Prop :=
  ∃ c d, l[i]? = some c ∧ l[j]? = some d ∧ c.AsksSame d

/-- Two places of one group: one and the same, or places that ask the same. -/
def InGroup (l : List Constraint) (i j : Nat) : Prop := i = j ∨ RepeatsAt l i j

/-- The place has none before it that asks the same. -/
def IsFirst (l : List Constraint) (j : Nat) : Prop := ∀ i < j, ¬ RepeatsAt l i j

section Places
variable {l : List Constraint} {i j k : Nat}

theorem RepeatsAt.symm (h : RepeatsAt l i j) : RepeatsAt l j i := by
  obtain ⟨c, d, hc, hd, hsame⟩ := h
  exact ⟨d, c, hd, hc, hsame.symm⟩

theorem RepeatsAt.trans (h : RepeatsAt l i j) (h' : RepeatsAt l j k) : RepeatsAt l i k := by
  obtain ⟨b, c, hb, hc, hsame⟩ := h
  obtain ⟨c', d, hc', hd, hsame'⟩ := h'
  obtain rfl : c = c' := Option.some.inj (hc.symm.trans hc')
  exact ⟨b, d, hb, hd, hsame.trans hsame'⟩

theorem repeatsAt_iff (hi : i < l.length) (hj : j < l.length) : RepeatsAt l i j ↔ l[i].AsksSame l[j] := by
  simp [RepeatsAt, hi, hj]

theorem RepeatsAt.lt_length (h : RepeatsAt l i j) : j < l.length := by
  obtain ⟨_, _, _, hd, _⟩ := h
  exact (List.getElem?_eq_some_iff.mp hd).1

/-- The first place that asks the same is the first of its group. -/
theorem isFirst_of_forall (h : RepeatsAt l i j) (hleast : ∀ k < i, ¬ RepeatsAt l k j) : IsFirst l i :=
  fun k hk hrepeats => hleast k hk (hrepeats.trans h)

theorem InGroup.symm (h : InGroup l i j) : InGroup l j i := by
  rcases h with rfl | h
  · exact .inl rfl
  · exact .inr h.symm

theorem InGroup.trans (h : InGroup l i j) (h' : InGroup l j k) : InGroup l i k := by
  rcases h with rfl | h
  · exact h'
  · rcases h' with rfl | h'
    · exact .inr h
    · exact .inr (h.trans h')

/-- Of two places of a group at most one is the first. -/
theorem IsFirst.eq (hi : IsFirst l i) (hk : IsFirst l k) (h : InGroup l i k) : i = k := by
  rcases h with h | h
  · exact h
  · rcases Nat.lt_trichotomy i k with hlt | heq | hlt
    · exact absurd h (hk i hlt)
    · exact heq
    · exact absurd h.symm (hi k hlt)

theorem exists_first (hj : j < l.length) : ∃ i, i < l.length ∧ IsFirst l i ∧ InGroup l i j := by
  classical
  by_cases hrepeated : ∃ i, RepeatsAt l i j
  · have hfound := Nat.find_spec hrepeated
    exact ⟨Nat.find hrepeated, hfound.symm.lt_length, isFirst_of_forall hfound fun _ => Nat.find_min hrepeated,
      .inr hfound⟩
  · exact ⟨j, hj, fun i _ hi => hrepeated ⟨i, hi⟩, .inl rfl⟩

/-- **Each group has one first place.** -/
theorem existsUnique_first (hj : j < l.length) : ∃! i, i < l.length ∧ IsFirst l i ∧ InGroup l i j := by
  obtain ⟨i, hi, hfirst, hgroup⟩ := exists_first hj
  refine ⟨i, ⟨hi, hfirst, hgroup⟩, fun k ⟨_, hfirst', hgroup'⟩ => ?_⟩
  exact hfirst'.eq hfirst (hgroup'.trans hgroup.symm)

end Places

/-! ### What is listed -/

namespace Redundancy

/-- The entry is about a place of a list: it names the constraint there, and the first one that asks the same. -/
structure At (r : Redundancy) (l : List Constraint) (i : Nat) (first : Constraint) (j : Nat) (later : Constraint) :
    Prop where
  original : l[i]? = some first
  repeated : l[j]? = some later
  before : i < j
  asksSame : first.AsksSame later
  least : ∀ k < i, ¬ RepeatsAt l k j
  entry : r = ⟨later.id, first.id, "Exact duplicate of " ++ first.kind.text ++ " constraint " ++ first.id.text⟩

/-- The entries list, in order and once, the places of a row that are not the first to ask what they ask. -/
structure Lists (l : List Constraint) (places : List Nat) (entries : List Redundancy) : Prop where
  ascending : places.Pairwise (· < ·)
  mem_iff : ∀ j, j ∈ places ↔ ∃ i < j, RepeatsAt l i j
  entries : List.Forall₂ (fun j r => ∃ i first later, r.At l i first j later) places entries

variable {earlier rest l : List Constraint} {c first : Constraint}

/-- The place behind `earlier` repeats one in front of it exactly if a member of `earlier` asks the same. -/
theorem repeatsAt_behind_iff {i : Nat} (hi : i < earlier.length) :
    RepeatsAt (earlier ++ c :: rest) i earlier.length ↔ earlier[i].AsksSame c := by
  simp [RepeatsAt, List.getElem?_append_left hi, List.getElem?_eq_getElem hi]

theorem isFirst_of_find?_eq_none (h : earlier.find? (·.duplicates c) = none) :
    IsFirst (earlier ++ c :: rest) earlier.length := by
  intro i hi hrepeats
  have hnot := List.find?_eq_none.mp h _ (List.getElem_mem hi)
  exact hnot (Constraint.duplicates_iff_asksSame.mpr ((repeatsAt_behind_iff hi).mp hrepeats))

theorem at_of_find?_eq_some (rest : List Constraint) (h : earlier.find? (·.duplicates c) = some first) :
    ∃ i, At ⟨c.id, first.id, "Exact duplicate of " ++ first.kind.text ++ " constraint " ++ first.id.text⟩
      (earlier ++ c :: rest) i first earlier.length c := by
  obtain ⟨hduplicates, i, hi, rfl, hleast⟩ := List.find?_eq_some_iff_getElem.mp h
  refine ⟨i, ?_, ?_, hi, Constraint.duplicates_iff_asksSame.mp hduplicates, fun k hk hrepeats => ?_, rfl⟩
  · rw [List.getElem?_append_left hi, List.getElem?_eq_getElem hi]
  · rw [List.getElem?_append_right (Nat.le_refl _), Nat.sub_self, List.getElem?_cons_zero]
  · have hnot := hleast k hk
    have hsame := Constraint.duplicates_iff_asksSame.mpr ((repeatsAt_behind_iff (Nat.lt_trans hk hi)).mp hrepeats)
    rw [hsame] at hnot
    cases hnot

theorem At.repeatsAt {r : Redundancy} {i j : Nat} {later : Constraint} (h : r.At l i first j later) :
    RepeatsAt l i j :=
  ⟨first, later, h.original, h.repeated, h.asksSame⟩

/-- What the rest of a list adds to what is listed. One constraint after the other goes from `l` to `earlier`, and the
list that the places are about stays the same. -/
theorem exists_places (earlier l : List Constraint) :
    ∃ places : List Nat, places.Pairwise (· < ·) ∧
      (∀ j, j ∈ places ↔ earlier.length ≤ j ∧ ∃ i < j, RepeatsAt (earlier ++ l) i j) ∧
      List.Forall₂ (fun j r => ∃ i first later, r.At (earlier ++ l) i first j later) places (among earlier l) := by
  induction l generalizing earlier with
  | nil =>
    refine ⟨[], .nil, fun j => ⟨nofun, fun ⟨hj, i, _, hrepeats⟩ => ?_⟩, .nil⟩
    have hlength := hrepeats.lt_length
    rw [List.append_nil] at hlength
    omega
  | cons c rest ih =>
    obtain ⟨places, hascending, hmem, hentries⟩ := ih (earlier ++ [c])
    simp only [List.append_assoc, List.singleton_append, List.length_append, List.length_singleton] at hmem hentries
    unfold among
    cases hfind : earlier.find? (·.duplicates c) with
    | none =>
      have hfirst : IsFirst (earlier ++ c :: rest) earlier.length := isFirst_of_find?_eq_none hfind
      refine ⟨places, hascending, fun j => (hmem j).trans ?_, hentries⟩
      constructor
      · intro ⟨hj, hrepeated⟩
        exact ⟨by omega, hrepeated⟩
      · intro ⟨hj, i, hi, hrepeats⟩
        refine ⟨Nat.lt_of_le_of_ne hj ?_, i, hi, hrepeats⟩
        rintro rfl
        exact hfirst i hi hrepeats
    | some first =>
      obtain ⟨i, hat⟩ := at_of_find?_eq_some rest hfind
      refine ⟨earlier.length :: places, ?_, fun j => ?_, .cons ⟨i, first, c, hat⟩ hentries⟩
      · exact List.pairwise_cons.mpr ⟨fun j hj => ((hmem j).mp hj).1, hascending⟩
      · rw [List.mem_cons, hmem]
        constructor
        · rintro (rfl | ⟨hj, hrepeated⟩)
          · exact ⟨Nat.le_refl _, i, hat.before, hat.repeatsAt⟩
          · exact ⟨by omega, hrepeated⟩
        · intro ⟨hj, hrepeated⟩
          rcases Nat.eq_or_lt_of_le hj with heq | hlt
          · exact .inl heq.symm
          · exact .inr ⟨hlt, hrepeated⟩

theorem exists_lists (l : List Constraint) : ∃ places, Lists l places (among [] l) := by
  obtain ⟨places, hascending, hmem, hentries⟩ := exists_places [] l
  exact ⟨places, hascending, fun j => (hmem j).trans (and_iff_right (Nat.zero_le j)), hentries⟩

namespace Lists

variable {places : List Nat} {entries : List Redundancy} {j : Nat}

theorem not_mem_iff (h : Lists l places entries) : j ∉ places ↔ IsFirst l j := by
  rw [h.mem_iff]
  simp [IsFirst]

/-- An original is not listed itself. -/
theorem original_not_mem {r : Redundancy} {i : Nat} {later : Constraint} (h : Lists l places entries)
    (hat : r.At l i first j later) : i ∉ places :=
  h.not_mem_iff.mpr (isFirst_of_forall hat.repeatsAt hat.least)

/-- Without what is listed, one of each group is left. -/
theorem existsUnique_left (h : Lists l places entries) (hj : j < l.length) :
    ∃! i, i < l.length ∧ i ∉ places ∧ InGroup l i j := by
  simp only [h.not_mem_iff]
  exact existsUnique_first hj

theorem exists_at {r : Redundancy} (h : Lists l places entries) (hr : r ∈ entries) :
    ∃ i first j later, r.At l i first j later := by
  obtain ⟨k, hk, rfl⟩ := List.getElem_of_mem hr
  obtain ⟨i, first, later, hat⟩ := h.entries.get (h.entries.length_eq ▸ hk) hk
  exact ⟨i, first, _, later, hat⟩

/-! ### By identifier -/

/-- The entries name the constraints at the listed places. -/
theorem ids_entries (h : Lists l places entries) :
    entries.map (fun r => some r.constraint) = places.map fun j => (l.map (·.id))[j]? := by
  rw [← List.forall₂_eq_eq_eq, List.forall₂_map_left_iff, List.forall₂_map_right_iff]
  refine h.entries.flip.imp ?_
  rintro r j ⟨i, first, later, hat⟩
  rw [List.getElem?_map, hat.repeated, hat.entry, Option.map_some]

/-- Where every constraint has an identifier of its own, a constraint is named exactly if its place is listed. -/
theorem id_mem_iff (h : Lists l places entries) (hids : (l.map (·.id)).Nodup) (hj : j < l.length) :
    l[j].id ∈ entries.map (·.constraint) ↔ j ∈ places := by
  have hplace : (l.map (·.id))[j]? = some l[j].id := by
    rw [List.getElem?_map, List.getElem?_eq_getElem hj, Option.map_some]
  have hsome : l[j].id ∈ entries.map (·.constraint) ↔ some l[j].id ∈ entries.map fun r => some r.constraint := by
    simp
  rw [hsome, h.ids_entries, List.mem_map]
  constructor
  · rintro ⟨k, hk, heq⟩
    rwa [(List.getElem?_inj (by rwa [List.length_map]) hids).mp (hplace.trans heq.symm)]
  · exact fun hmem => ⟨j, hmem, hplace⟩

/-- What is left by identifier is what is left by place. -/
theorem existsUnique_left_of_nodup (h : Lists l places entries) (hids : (l.map (·.id)).Nodup) (hc : c ∈ l) :
    ∃! d, d ∈ l ∧ d.id ∉ entries.map (·.constraint) ∧ (d = c ∨ d.AsksSame c) := by
  obtain ⟨j, hj, rfl⟩ := List.getElem_of_mem hc
  obtain ⟨i, ⟨hi, hleft, hgroup⟩, hunique⟩ := h.existsUnique_left hj
  refine ⟨l[i], ⟨List.getElem_mem hi, fun hid => hleft ((h.id_mem_iff hids hi).mp hid), ?_⟩, ?_⟩
  · rcases hgroup with rfl | hrepeats
    · exact .inl rfl
    · exact .inr ((repeatsAt_iff hi hj).mp hrepeats)
  · rintro d ⟨hd, hnot, hsame⟩
    obtain ⟨k, hk, rfl⟩ := List.getElem_of_mem hd
    have hplace : k = i := by
      refine hunique k ⟨hk, fun hmem => hnot ((h.id_mem_iff hids hk).mpr hmem), ?_⟩
      rcases hsame with heq | hsame
      · refine .inl ((List.getElem?_inj (by rwa [List.length_map]) hids).mp ?_)
        simp [hk, hj, heq]
      · exact .inr ((repeatsAt_iff hk hj).mpr hsame)
    subst hplace
    rfl

theorem duplicates_not_mem (h : Lists l places entries) (hids : (l.map (·.id)).Nodup) {r : Redundancy}
    (hr : r ∈ entries) : r.duplicates ∉ entries.map (·.constraint) := by
  obtain ⟨i, first, j, later, hat⟩ := h.exists_at hr
  obtain ⟨hi, rfl⟩ := List.getElem?_eq_some_iff.mp hat.original
  rw [hat.entry, h.id_mem_iff hids hi]
  exact h.original_not_mem hat

end Lists

end Redundancy

namespace Solver

variable (solver : Solver) (observer : Observer) (snapshot : Snapshot)

/-- **A report on redundancy leaves one of each group.** It lists, in order and once, the places of the order of a
pass that do not ask anything new, each with the first that asks the same, and that one is not listed. Without the
listed places, one of each group of constraints that ask the same is left. Where every constraint has an identifier
of its own, this can be said without places. -/
theorem run_representatives (l : List Constraint) :
    let order := solveOrder l
    let redundant := (solver.run observer l snapshot).report.redundant
    ∃ places, Redundancy.Lists order places redundant ∧
      (∀ (r : Redundancy) i first j later, r.At order i first j later → i ∉ places) ∧
      (∀ j < order.length, ∃! i, i < order.length ∧ i ∉ places ∧ InGroup order i j) ∧
      ((l.map (·.id)).Nodup →
        (∀ r ∈ redundant, r.duplicates ∉ redundant.map (·.constraint)) ∧
        ∀ c ∈ order, ∃! d, d ∈ order ∧ d.id ∉ redundant.map (·.constraint) ∧ (d = c ∨ d.AsksSame c)) := by
  intro order redundant
  obtain ⟨places, hlists⟩ := Redundancy.exists_lists order
  refine ⟨places, hlists, fun _ _ _ _ _ => hlists.original_not_mem, fun _ => hlists.existsUnique_left, fun hids => ?_⟩
  have horder : (order.map (·.id)).Nodup := by
    refine ((solveOrder_perm l).map _).nodup_iff.mpr (hids.sublist ?_)
    exact (List.filter_sublist).map _
  exact ⟨fun _ => hlists.duplicates_not_mem horder, fun _ => hlists.existsUnique_left_of_nodup horder⟩

/-- Two points at no distance, twice: the second time with the points in the other order, the other zero and a higher
priority. And twice at a distance that is no number. The second is solved first and kept, the first is listed, and
those that ask for no number are not. -/
theorem run_representatives_distance :
    let points : Snapshot := .ofList [(⟨⟨1⟩⟩, .point ⟨0.0, 0.0⟩), (⟨⟨2⟩⟩, .point ⟨3.0, 4.0⟩)]
    let apart (number : BitVec 128) (priority : Priority) (entities : List EntityId) (distance : Float) : Constraint :=
      { Constraint.bare number .distance entities with
        priority, parameters := .ofList [(.distance, .number distance)] }
    let low := apart 1 .low [⟨⟨1⟩⟩, ⟨⟨2⟩⟩] 0.0
    let high := apart 2 .high [⟨⟨2⟩⟩, ⟨⟨1⟩⟩] (-0.0)
    let odd := apart 3 .low [⟨⟨1⟩⟩, ⟨⟨2⟩⟩] (0.0 / 0.0)
    let odd' := apart 4 .low [⟨⟨1⟩⟩, ⟨⟨2⟩⟩] (0.0 / 0.0)
    let l := [low, odd, odd', high]
    let redundant := (run ⟨{}⟩ .silent l points).report.redundant
    redundant.map (fun r => (r.constraint, r.duplicates)) = [(low.id, high.id)] ∧
      ∃! d, d ∈ solveOrder l ∧ d.id ∉ redundant.map (·.constraint) ∧ (d = low ∨ d.AsksSame low) := by
  intro points apart low high odd odd' l redundant
  obtain ⟨_, _, _, _, hids⟩ := run_representatives ⟨{}⟩ .silent points l
  exact ⟨by decide +kernel, (hids (by decide +kernel)).2 low (by decide +kernel)⟩

end Solver

end Drafting
