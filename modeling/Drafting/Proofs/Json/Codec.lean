import Drafting.Json.Codec
import Mathlib.Data.List.Nodup

/-! What is written is read again.

`Rereads a` says so of a value. It holds of all basic types, but for a count beyond
64 bits and a floating point number that is not finite: that one is written as
`null`, which no number reads (`decode?_encode_float`). A record gives back its
fields because they have different names (`fields?_record`), and a table its
entries, in order, because its keys are different and are read from their texts. -/
namespace Drafting

section Tables
variable {κ ν : Type} [DecidableEq κ]

theorem Table.put_of_not_mem {k : κ} {l : List (κ × ν)} (h : k ∉ l.map Prod.fst) (v : ν) :
    put k v l = l ++ [(k, v)] := by
  induction l with
  | nil => rfl
  | cons e rest ih =>
    obtain ⟨he, hrest⟩ := not_or.mp (List.mem_cons.not.mp h)
    rw [put, if_neg (Ne.symm he), ih hrest, List.cons_append]

/-- Entries with different keys that a table does not have come in at its end. -/
theorem Table.entries_insertAll (t : Table κ ν) {l : List (κ × ν)} (h : ((t.entries ++ l).map Prod.fst).Nodup) :
    (t.insertAll l).entries = t.entries ++ l := by
  induction l generalizing t with
  | nil => exact (List.append_nil _).symm
  | cons e rest ih =>
    have hnew : e.1 ∉ t.entries.map Prod.fst := by
      rw [List.map_append, List.map_cons] at h
      exact fun hmem => List.disjoint_of_nodup_append h hmem List.mem_cons_self
    have hentries : (t.insert e.1 e.2).entries = t.entries ++ [e] := put_of_not_mem hnew e.2
    have happend : t.entries ++ e :: rest = (t.insert e.1 e.2).entries ++ rest := by
      rw [hentries, List.append_assoc]
      rfl
    rw [insertAll_cons, happend, ih]
    rwa [← happend]

/-- A table is made from its entries. -/
theorem Table.ofList_entries (t : Table κ ν) : ofList t.entries = t :=
  ext_entries (entries_insertAll empty t.nodup)

end Tables

theorem mapM_map_eq_some {α β γ : Type} {i : α → β} {f : β → Option γ} {g : α → γ} {l : List α}
    (h : ∀ a ∈ l, f (i a) = some (g a)) : (l.map i).mapM f = some (l.map g) := by
  induction l with
  | nil => rfl
  | cons a rest ih =>
    obtain ⟨ha, hrest⟩ := List.forall_mem_cons.mp h
    rw [List.map_cons, List.mapM_cons, ha, ih hrest]
    rfl

namespace Json

/-- What is written for `a` is read as `a`. -/
def Rereads {α : Type} [Codec α] (a : α) : Prop := decode? (encode a) = some a

/-! ### Basic types -/

theorem rereads_bool (b : Bool) : Rereads b := rfl

theorem rereads_string (s : String) : Rereads s := rfl

theorem rereads_uint32 (n : UInt32) : Rereads n := by
  have hlt : (n.toNat : Int) < UInt32.size := by exact_mod_cast n.toNat_lt
  show (if 0 ≤ (n.toNat : Int) ∧ (n.toNat : Int) < UInt32.size then some (UInt32.ofNat (n.toNat : Int).toNat) else none) = _
  rw [if_pos ⟨Int.natCast_nonneg _, hlt⟩, Int.toNat_natCast, UInt32.ofNat_toNat]

theorem decode?_encode_float (x : Float) : decode? (encode x) = if x.isFinite then some x else none := by
  show decode? (if x.isFinite then Value.float x else .null) = _
  by_cases h : x.isFinite = true
  · rw [if_pos h, if_pos h]
    exact if_pos h
  · rw [if_neg h, if_neg h]
    rfl

theorem rereads_float {x : Float} (h : x.isFinite = true) : Rereads x := by
  rw [Rereads, decode?_encode_float, if_pos h]

theorem rereads_list {α : Type} [Codec α] {l : List α} (h : ∀ a ∈ l, Rereads a) : Rereads l := by
  have hread : (l.map encode).mapM decode? = some (l.map fun a => a) := mapM_map_eq_some h
  rwa [List.map_id'] at hread

/-! ### Records -/

section Records
variable {fields : List (String × Option Value)}

/-- There is one field of its name. -/
theorem filter_name {field : String × Option Value} (hnodup : (fields.map Prod.fst).Nodup) (hmem : field ∈ fields) :
    fields.filter (·.1 == field.1) = [field] := by
  induction fields with
  | nil => cases hmem
  | cons first rest ih =>
    obtain ⟨hfirst, hrest⟩ := List.nodup_cons.mp hnodup
    rcases List.mem_cons.mp hmem with rfl | hmem
    · have hothers : rest.filter (·.1 == field.1) = [] := by
        refine List.filter_eq_nil_iff.mpr fun other hother hname => hfirst ?_
        rw [← eq_of_beq hname]
        exact List.mem_map_of_mem hother
      rw [List.filter_cons, if_pos (beq_self_eq_true _), hothers]
    · have hne : ¬ (first.1 == field.1) = true := fun hname => hfirst (eq_of_beq hname ▸ List.mem_map_of_mem hmem)
      rw [List.filter_cons, if_neg hne, ih hrest hmem]

/-- The members of a record: its fields, without those that are left out. -/
def written (fields : List (String × Option Value)) : List (String × Value) :=
  fields.filterMap fun f => f.2.map (f.1, ·)

theorem member?_written {field : String × Option Value} (hnodup : (fields.map Prod.fst).Nodup) (hmem : field ∈ fields) :
    member? field.1 (written fields) = some field.2 := by
  have hfilter : (written fields).filter (·.1 == field.1) = written (fields.filter (·.1 == field.1)) := by
    rw [written, List.filter_filterMap, written, List.filterMap_filter]
    refine List.filterMap_congr fun f _ => ?_
    obtain ⟨name, value⟩ := f
    cases value with
    | none => simp
    | some v => by_cases hname : name = field.1 <;> simp [hname]
  rw [member?, hfilter, filter_name hnodup hmem]
  obtain ⟨name, value⟩ := field
  cases value <;> rfl

/-- A record gives what was put into it, and nothing for what was left out. -/
theorem fields?_record (fields : List (String × Option Value)) (hnodup : (fields.map Prod.fst).Nodup) :
    (Value.record fields).fields? (fields.map Prod.fst) = some (fields.map Prod.snd) := by
  have hmembers : ((written fields).map fun m => ((some m.1, m.2) : Literal × Value)).mapM
      (fun m => m.1.map (·, m.2)) = some ((written fields).map fun m => m) := mapM_map_eq_some fun _ _ => rfl
  rw [List.map_id'] at hmembers
  show (List.mapM _ ((written fields).map fun m => ((some m.1, m.2) : Literal × Value))) >>= _ = _
  rw [hmembers]
  exact mapM_map_eq_some fun field hmem => member?_written hnodup hmem

/-- Whoever reads the fields of a record gets what was put into them. -/
theorem bind_record {α : Type} (hnodup : (fields.map Prod.fst).Nodup) (read : List (Option Value) → Option α) :
    ((Value.record fields).fields? (fields.map Prod.fst)).bind read = read (fields.map Prod.snd) := by
  rw [fields?_record fields hnodup, Option.bind_some]

end Records

variable {α : Type} [Codec α]

theorem required_encode {a : α} (h : Rereads a) : required (some (encode a)) = some a := h

/-- A field that may be absent is read as it was, unless its value is written as `null`. -/
theorem omittable_encode {o : Option α} (hnull : decode? (.null : Value) = (none : Option α)) (h : ∀ a ∈ o, Rereads a) :
    omittable (o.map encode) = some o := by
  cases o with
  | none => rfl
  | some a =>
    have hread := h a rfl
    unfold Rereads at hread
    rw [Option.map_some]
    generalize encode a = v at hread
    match v with
    | .null => cases hnull.symm.trans hread
    | .scalar (.bool _) | .scalar (.integer _) | .scalar (.float _) | .scalar (.string _) | .array _ | .object _ =>
      exact congrArg (Option.map some) hread

@[simp] theorem choice?_tagged (name : String) (data : Value) :
    (Value.tagged name data).choice? = some (name, some data) := rfl

/-! ### Tables -/

theorem rereads_table {κ ν : Type} [DecidableEq κ] [Codec ν] {text : κ → String} {ofText? : String → Option κ}
    (htext : ∀ k, ofText? (text k) = some k) {t : Table κ ν} (h : ∀ v ∈ t.values, Rereads v) :
    decodeTable? ofText? (encodeTable text t) = some t := by
  have hentries : ((t.entries.map fun e => (text e.1, encode e.2)).map fun m => ((some m.1, m.2) : Literal × Value)).mapM
      (fun m => do
        let name ← m.1
        return (← ofText? name, ← decode? m.2)) = some (t.entries.map fun e => e) := by
    rw [List.map_map]
    refine mapM_map_eq_some fun e he => ?_
    have hvalue : decode? (encode e.2) = some e.2 := h e.2 (List.mem_map_of_mem he)
    simp [htext, hvalue]
  rw [List.map_id'] at hentries
  show (List.mapM _ _) >>= _ = _
  rw [hentries]
  exact congrArg some t.ofList_entries

end Json

end Drafting
