/-! Finite tables.

A `Table` holds one value per key and remembers the order in which its keys
first came in. Storing under a known key keeps that key's place, so a run of
writes to known keys leaves the row of keys alone (`keys_insert_of_mem`), and two
tables that list the same entries are equal as values. `get?` is the view through
which every operation is described. -/
namespace Drafting

/-- A finite map as its entries, one for each key. -/
structure Table (κ ν : Type) where
  entries : List (κ × ν)
  nodup : (entries.map Prod.fst).Nodup
  deriving DecidableEq

namespace Table

variable {κ ν μ : Type}

/-! ### Entry lists -/

/-- The value of the first entry under `k`. -/
def find? [DecidableEq κ] (k : κ) : List (κ × ν) → Option ν
  | [] => none
  | (k', v) :: rest => if k' = k then some v else find? k rest

/-- Puts `v` in the place of the first entry under `k`, or at the end. -/
def put [DecidableEq κ] (k : κ) (v : ν) : List (κ × ν) → List (κ × ν)
  | [] => [(k, v)]
  | (k', v') :: rest => if k' = k then (k, v) :: rest else (k', v') :: put k v rest

section Entries
variable [DecidableEq κ]

theorem find?_put_self (k : κ) (v : ν) (l : List (κ × ν)) : find? k (put k v l) = some v := by
  induction l with
  | nil => simp [put, find?]
  | cons e rest ih => by_cases h : e.1 = k <;> simp [put, find?, h, ih]

theorem find?_put_of_ne {k k' : κ} (h : k ≠ k') (v : ν) (l : List (κ × ν)) :
    find? k' (put k v l) = find? k' l := by
  induction l with
  | nil => simp [put, find?, h]
  | cons e rest ih =>
    by_cases hk : e.1 = k
    · simp [put, find?, hk, h]
    · simp only [put, hk, if_false, find?, ih]

theorem keys_put (k : κ) (v : ν) (l : List (κ × ν)) :
    (put k v l).map Prod.fst =
      if k ∈ l.map Prod.fst then l.map Prod.fst else l.map Prod.fst ++ [k] := by
  induction l with
  | nil => simp [put]
  | cons e rest ih =>
    by_cases h : e.1 = k
    · simp [put, h]
    · have h' : ¬ k = e.1 := fun e' => h e'.symm
      by_cases hm : k ∈ rest.map Prod.fst
      · simp only [put, h, if_false, List.map_cons, ih, List.mem_cons, hm, or_true, if_true]
      · simp only [put, h, if_false, List.map_cons, ih, List.mem_cons, h', hm, or_self,
          List.cons_append]

theorem find?_isSome_iff (k : κ) (l : List (κ × ν)) : (find? k l).isSome ↔ k ∈ l.map Prod.fst := by
  induction l with
  | nil => simp [find?]
  | cons e rest ih =>
    by_cases h : e.1 = k
    · simp [find?, h]
    · have h' : ¬ k = e.1 := fun e' => h e'.symm
      simp only [find?, h, if_false, ih, List.map_cons, List.mem_cons, h', false_or]

theorem find?_eq_some_iff {k : κ} {v : ν} {l : List (κ × ν)} (h : (l.map Prod.fst).Nodup) :
    find? k l = some v ↔ (k, v) ∈ l := by
  induction l with
  | nil => simp [find?]
  | cons e rest ih =>
    obtain ⟨hk, hr⟩ := List.nodup_cons.mp h
    by_cases he : e.1 = k
    · subst he
      constructor
      · intro hv
        simp only [find?, if_true, Option.some.injEq] at hv
        subst hv
        exact List.mem_cons_self
      · intro hm
        rcases List.mem_cons.mp hm with heq | hm
        · rw [find?, if_pos rfl, ← heq]
        · exact absurd (List.mem_map.mpr ⟨_, hm, rfl⟩) hk
    · have hne : (k, v) ≠ e := fun heq => he (by rw [← heq])
      simp only [find?, he, if_false, ih hr, List.mem_cons, hne, false_or]

/-- Writing back what is there changes nothing. -/
theorem put_of_find? {k : κ} {v : ν} {l : List (κ × ν)} (h : find? k l = some v) : put k v l = l := by
  induction l with
  | nil => simp [find?] at h
  | cons e rest ih =>
    by_cases he : e.1 = k
    · simp only [find?, he, if_true, Option.some.injEq] at h
      subst he
      subst h
      simp [put]
    · simp only [find?, he, if_false] at h
      simp only [put, he, if_false, ih h]

end Entries

/-! ### Tables -/

/-- The table without entries. -/
def empty : Table κ ν := ⟨[], by simp⟩

instance : Inhabited (Table κ ν) := ⟨empty⟩

/-- The keys, in order of their first arrival. -/
def keys (t : Table κ ν) : List κ := t.entries.map Prod.fst

/-- The values, in the order of their keys. -/
def values (t : Table κ ν) : List ν := t.entries.map Prod.snd

/-- The number of keys. -/
def size (t : Table κ ν) : Nat := t.entries.length

/-- Whether there is no entry. -/
def isEmpty (t : Table κ ν) : Bool := t.entries.isEmpty

theorem nodup_keys (t : Table κ ν) : t.keys.Nodup := t.nodup

@[ext] theorem ext_entries {s t : Table κ ν} (h : s.entries = t.entries) : s = t := by
  cases s
  cases t
  simp_all

/-- Keeps the entries that `f` answers, with the answer as new value. -/
def filterMap (f : κ → ν → Option μ) (t : Table κ ν) : Table κ μ where
  entries := t.entries.filterMap fun e => (f e.1 e.2).map (e.1, ·)
  nodup := by
    have h := t.nodup
    generalize t.entries = l at h
    induction l with
    | nil => simp
    | cons e rest ih =>
      obtain ⟨he, hr⟩ := List.nodup_cons.mp h
      cases hf : f e.1 e.2 with
      | none => simpa [List.filterMap_cons, hf] using ih hr
      | some m =>
        simp only [List.filterMap_cons, hf, Option.map_some, List.map_cons]
        refine List.nodup_cons.mpr ⟨fun hm => he ?_, ih hr⟩
        obtain ⟨p, hp, hpe⟩ := List.mem_map.mp hm
        obtain ⟨q, hq, hqp⟩ := List.mem_filterMap.mp hp
        obtain ⟨_, _, hqp⟩ := Option.map_eq_some_iff.mp hqp
        rw [← hpe, ← hqp]
        exact List.mem_map_of_mem hq

/-- Replaces every value. -/
def map (f : ν → μ) (t : Table κ ν) : Table κ μ where
  entries := t.entries.map fun e => (e.1, f e.2)
  nodup := by simpa [List.map_map, Function.comp_def] using t.nodup

@[simp] theorem keys_map (f : ν → μ) (t : Table κ ν) : (t.map f).keys = t.keys := by
  simp [keys, map]

@[simp] theorem values_map (f : ν → μ) (t : Table κ ν) : (t.map f).values = t.values.map f := by
  simp [values, map]

section Keyed
variable [DecidableEq κ]

/-- The value under `k`. -/
def get? (t : Table κ ν) (k : κ) : Option ν := find? k t.entries

instance : Membership κ (Table κ ν) := ⟨fun t k => k ∈ t.keys⟩

instance (t : Table κ ν) (k : κ) : Decidable (k ∈ t) := inferInstanceAs (Decidable (k ∈ t.keys))

/-- Whether `k` has a value. -/
def contains (t : Table κ ν) (k : κ) : Bool := (t.get? k).isSome

/-- Stores `v` under `k`: a known key keeps its place, a new one goes to the end. -/
def insert (t : Table κ ν) (k : κ) (v : ν) : Table κ ν where
  entries := put k v t.entries
  nodup := by
    rw [keys_put]
    split
    · exact t.nodup
    · rename_i h
      refine List.nodup_append.mpr ⟨t.nodup, by simp, ?_⟩
      intro a ha b hb
      rw [List.mem_singleton] at hb
      subst hb
      exact fun e => h (e ▸ ha)

/-- Stores the pairs of `l` one after the other: of two values for one key the later stays. -/
def insertAll (t : Table κ ν) (l : List (κ × ν)) : Table κ ν :=
  l.foldl (fun t e => t.insert e.1 e.2) t

/-- The table of a list of pairs. -/
def ofList (l : List (κ × ν)) : Table κ ν := empty.insertAll l

/-- The entries whose keys are listed. -/
def restrict (t : Table κ ν) (ks : List κ) : Table κ ν :=
  t.filterMap fun k v => if k ∈ ks then some v else none

/-- Whether two tables have the same keys and related values under each of them, in any order. -/
def matchesBy (r : ν → ν → Bool) (s t : Table κ ν) : Bool :=
  s.size == t.size && s.entries.all fun e => (t.get? e.1).any (r e.2)

/-! ### The view -/

theorem mem_iff {t : Table κ ν} {k : κ} : k ∈ t ↔ (t.get? k).isSome := by
  rw [get?, find?_isSome_iff]
  rfl

theorem contains_iff {t : Table κ ν} {k : κ} : t.contains k = true ↔ k ∈ t := mem_iff.symm

theorem get?_eq_some_iff {t : Table κ ν} {k : κ} {v : ν} : t.get? k = some v ↔ (k, v) ∈ t.entries :=
  find?_eq_some_iff t.nodup

@[simp] theorem get?_empty (k : κ) : (empty : Table κ ν).get? k = none := rfl

@[simp] theorem get?_insert_self (t : Table κ ν) (k : κ) (v : ν) : (t.insert k v).get? k = some v :=
  find?_put_self k v t.entries

theorem get?_insert_of_ne (t : Table κ ν) {k k' : κ} (h : k ≠ k') (v : ν) :
    (t.insert k v).get? k' = t.get? k' :=
  find?_put_of_ne h v t.entries

theorem get?_insert (t : Table κ ν) (k k' : κ) (v : ν) :
    (t.insert k v).get? k' = if k = k' then some v else t.get? k' := by
  by_cases h : k = k'
  · subst h
    simp
  · simp [h, get?_insert_of_ne t h v]

/-- A write to a known key keeps the row of keys. -/
theorem keys_insert_of_mem {t : Table κ ν} {k : κ} (h : k ∈ t) (v : ν) : (t.insert k v).keys = t.keys := by
  show (put k v t.entries).map Prod.fst = t.entries.map Prod.fst
  rw [keys_put, if_pos]
  exact h

theorem insert_of_get? {t : Table κ ν} {k : κ} {v : ν} (h : t.get? k = some v) : t.insert k v = t :=
  ext_entries (put_of_find? h)

/-- Tables with one row of keys and the same values are the same. -/
theorem ext_get? {s t : Table κ ν} (hkeys : s.keys = t.keys) (h : ∀ k, s.get? k = t.get? k) : s = t := by
  have hfind : ∀ k, find? k s.entries = find? k t.entries := h
  have hs := s.nodup
  apply ext_entries
  simp only [keys] at hkeys
  generalize s.entries = l at hkeys hfind hs
  generalize t.entries = l' at hkeys hfind
  induction l generalizing l' with
  | nil => exact (List.map_eq_nil_iff.mp hkeys.symm).symm
  | cons e rest ih =>
    cases l' with
    | nil => cases hkeys
    | cons e' rest' =>
      simp only [List.map_cons, List.cons.injEq] at hkeys
      obtain ⟨he, hr⟩ := List.nodup_cons.mp hs
      have hv : e.2 = e'.2 := by simpa [find?, hkeys.1] using hfind e.1
      refine congr (congrArg List.cons (Prod.ext hkeys.1 hv)) (ih hr _ hkeys.2 fun k => ?_)
      by_cases hk : e.1 = k
      · subst hk
        have hnone : ∀ m : List (κ × ν), e.1 ∉ m.map Prod.fst → find? e.1 m = none := fun m hm => by
          rw [← Option.not_isSome_iff_eq_none, find?_isSome_iff]
          exact hm
        rw [hnone rest he, hnone rest' (hkeys.2 ▸ he)]
      · simpa [find?, hk, ← hkeys.1] using hfind k

@[simp] theorem insertAll_nil (t : Table κ ν) : t.insertAll [] = t := rfl

@[simp] theorem insertAll_cons (t : Table κ ν) (e : κ × ν) (l : List (κ × ν)) :
    t.insertAll (e :: l) = (t.insert e.1 e.2).insertAll l := rfl

/-- Writes to known keys keep the row of keys. -/
theorem keys_insertAll_of_mem {t : Table κ ν} {l : List (κ × ν)} (h : ∀ e ∈ l, e.1 ∈ t) :
    (t.insertAll l).keys = t.keys := by
  induction l generalizing t with
  | nil => rfl
  | cons e rest ih =>
    have hkeys : (t.insert e.1 e.2).keys = t.keys := keys_insert_of_mem (h e List.mem_cons_self) e.2
    rw [insertAll_cons, ih, hkeys]
    intro e' he'
    show e'.1 ∈ (t.insert e.1 e.2).keys
    rw [hkeys]
    exact h e' (List.mem_cons_of_mem _ he')

theorem get?_insertAll_of_not_mem (t : Table κ ν) {l : List (κ × ν)} {k : κ} (h : k ∉ l.map Prod.fst) :
    (t.insertAll l).get? k = t.get? k := by
  induction l generalizing t with
  | nil => rfl
  | cons e rest ih =>
    simp only [List.map_cons, List.mem_cons, not_or] at h
    rw [insertAll_cons, ih _ h.2, get?_insert_of_ne t (fun he => h.1 he.symm)]

/-- After a run of writes a key has its old value, or one that was written under it. -/
theorem get?_insertAll_cases (t : Table κ ν) (l : List (κ × ν)) (k : κ) :
    (t.insertAll l).get? k = t.get? k ∨ ∃ v, (k, v) ∈ l ∧ (t.insertAll l).get? k = some v := by
  induction l generalizing t with
  | nil => exact .inl rfl
  | cons e rest ih =>
    rw [insertAll_cons]
    rcases ih (t.insert e.1 e.2) with h | ⟨v, hv, h⟩
    · by_cases hk : e.1 = k
      · subst hk
        exact .inr ⟨e.2, List.mem_cons_self, h.trans (get?_insert_self ..)⟩
      · exact .inl (h.trans (get?_insert_of_ne t hk e.2))
    · exact .inr ⟨v, List.mem_cons_of_mem _ hv, h⟩

/-- Under one key, the same writes have the same effect on tables that agree there. -/
theorem get?_insertAll_congr {s t : Table κ ν} {k : κ} (h : s.get? k = t.get? k) (l : List (κ × ν)) :
    (s.insertAll l).get? k = (t.insertAll l).get? k := by
  induction l generalizing s t with
  | nil => exact h
  | cons e rest ih =>
    refine ih ?_
    rw [get?_insert, get?_insert, h]

/-- Storing a whole table over another one. -/
theorem get?_insertAll_entries (s t : Table κ ν) (k : κ) :
    (t.insertAll s.entries).get? k = (s.get? k).or (t.get? k) := by
  have h := s.nodup
  show (t.insertAll s.entries).get? k = (find? k s.entries).or (t.get? k)
  generalize s.entries = l at h
  induction l generalizing t with
  | nil => rfl
  | cons e rest ih =>
    obtain ⟨he, hr⟩ := List.nodup_cons.mp h
    rw [insertAll_cons]
    by_cases hk : e.1 = k
    · subst hk
      rw [get?_insertAll_of_not_mem _ he]
      simp [find?]
    · rw [ih _ hr, get?_insert_of_ne t hk]
      simp [find?, hk]

theorem get?_filterMap (f : κ → ν → Option μ) (t : Table κ ν) (k : κ) :
    (t.filterMap f).get? k = (t.get? k).bind (f k) := by
  have h := t.nodup
  show find? k (t.entries.filterMap _) = (find? k t.entries).bind (f k)
  generalize t.entries = l at h
  induction l with
  | nil => rfl
  | cons e rest ih =>
    obtain ⟨he, hr⟩ := List.nodup_cons.mp h
    by_cases hk : e.1 = k
    · subst hk
      have hrest : find? e.1 rest = none := by
        cases hf : find? e.1 rest with
        | none => rfl
        | some v => exact absurd ((find?_isSome_iff e.1 rest).mp (by simp [hf])) he
      cases hf : f e.1 e.2 with
      | none => simp [hf, find?, ih hr, hrest]
      | some m => simp [hf, find?]
    · cases hf : f e.1 e.2 with
      | none => simp [hf, find?, hk, ih hr]
      | some m => simp [hf, find?, hk, ih hr]

theorem get?_restrict (t : Table κ ν) (ks : List κ) (k : κ) :
    (t.restrict ks).get? k = if k ∈ ks then t.get? k else none := by
  rw [restrict, get?_filterMap]
  cases t.get? k <;> split <;> simp_all

theorem keys_restrict (t : Table κ ν) (ks : List κ) : (t.restrict ks).keys = t.keys.filter (· ∈ ks) := by
  show (t.entries.filterMap _).map Prod.fst = (t.entries.map Prod.fst).filter _
  generalize t.entries = l
  induction l with
  | nil => rfl
  | cons e rest ih => by_cases h : e.1 ∈ ks <;> simp [List.map_filterMap, h] at ih ⊢ <;> exact ih

/-- A restriction sees nothing outside. -/
theorem restrict_congr {s t : Table κ ν} {ks : List κ} (hkeys : s.keys = t.keys)
    (h : ∀ k ∈ ks, s.get? k = t.get? k) : s.restrict ks = t.restrict ks := by
  refine ext_get? (by rw [keys_restrict, keys_restrict, hkeys]) fun k => ?_
  rw [get?_restrict, get?_restrict]
  split
  · rename_i hk
    exact h k hk
  · rfl

theorem filterMap_congr {f g : κ → ν → Option μ} {t : Table κ ν} (h : ∀ k v, t.get? k = some v → f k v = g k v) :
    t.filterMap f = t.filterMap g := by
  have hall : ∀ e ∈ t.entries, f e.1 e.2 = g e.1 e.2 := fun e he => h e.1 e.2 (get?_eq_some_iff.mpr he)
  apply ext_entries
  show t.entries.filterMap _ = t.entries.filterMap _
  generalize t.entries = l at hall
  induction l with
  | nil => rfl
  | cons e rest ih =>
    rw [List.filterMap_cons, List.filterMap_cons, hall e List.mem_cons_self,
      ih fun e' he' => hall e' (List.mem_cons_of_mem _ he')]

theorem filterMap_eq_empty {f : κ → ν → Option μ} {t : Table κ ν} (h : ∀ k v, t.get? k = some v → f k v = none) :
    t.filterMap f = .empty := by
  apply ext_entries
  show t.entries.filterMap _ = []
  refine List.filterMap_eq_nil_iff.mpr fun e he => ?_
  rw [h e.1 e.2 (get?_eq_some_iff.mpr he), Option.map_none]

theorem isEmpty_iff {t : Table κ ν} : t.isEmpty = true ↔ ∀ k, t.get? k = none := by
  constructor
  · intro h k
    rw [get?, List.isEmpty_iff.mp h]
    rfl
  · intro h
    refine List.isEmpty_iff.mpr (List.eq_nil_iff_forall_not_mem.mpr fun e he => ?_)
    have hnone := h e.1
    rw [get?_eq_some_iff.mpr he] at hnone
    cases hnone

theorem mem_values_iff {t : Table κ ν} {v : ν} : v ∈ t.values ↔ ∃ k, t.get? k = some v := by
  simp only [values, List.mem_map, get?_eq_some_iff]
  constructor
  · intro h
    obtain ⟨⟨k, _⟩, hm, rfl⟩ := h
    exact ⟨k, hm⟩
  · intro ⟨k, hm⟩
    exact ⟨(k, v), hm, rfl⟩

theorem get?_map (f : ν → μ) (t : Table κ ν) (k : κ) : (t.map f).get? k = (t.get? k).map f := by
  show find? k (t.entries.map _) = (find? k t.entries).map f
  generalize t.entries = l
  induction l with
  | nil => rfl
  | cons e rest ih => by_cases hk : e.1 = k <;> simp [find?, hk, ih]

end Keyed

end Table

end Drafting
