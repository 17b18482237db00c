import Drafting.Document.Constraint
import Drafting.Proofs.Document.Geometry

/-! Reading constraints and requests for them.

A constraint is read as it was written if its numbers are finite and its two times are
read from their texts. Its parameters, its verdict and its priority may be missing.
To take a member away from a document is to leave out a field of the record
(`without_record`), and a field that is left out stands for its standard value, so what
is read then is the constraint with these set back (`decode?_without`). In a request
everything but the kind and the entities may be missing, and is written only if it
is there. -/
namespace Drafting

open Json

/-! ### Parameters -/

theorem rereads_int32 (n : Int32) : Rereads n := by
  show (if Int32.minValue.toInt ≤ n.toInt ∧ n.toInt ≤ Int32.maxValue.toInt then some (Int32.ofInt n.toInt)
    else none) = _
  have hlow : Int32.minValue.toInt ≤ n.toInt := n.minValue_le_toInt
  have hhigh : n.toInt ≤ Int32.maxValue.toInt := n.toInt_le
  rw [if_pos ⟨hlow, hhigh⟩, Int32.ofInt_toInt]

theorem rereads_priority (p : Priority) : Rereads p := by
  show (decode? (encode p.value)).map Priority.mk = some p
  rw [rereads_int32 p.value]
  rfl

namespace ParameterValue

/-- The numbers of a parameter. -/
def numbers : ParameterValue → List Float
  | .number x => [x]
  | .point p => p.coordinates
  | .vector v => [v.x, v.y]

end ParameterValue

/-- The numbers of all parameters. -/
def Parameters.numbers (ps : Parameters) : List Float := ps.values.flatMap ParameterValue.numbers

theorem rereads_vec {v : Vec} (h : Number.AllFinite [v.x, v.y]) : Rereads v := by
  have hx : Rereads v.x := rereads_float (h v.x List.mem_cons_self)
  have hy : Rereads v.y := rereads_float (h v.y (List.mem_cons_of_mem _ List.mem_cons_self))
  show ((decode? (encode v.x)).bind fun x => (decode? (encode v.y)).bind fun y => some (Vec.mk x y)) = _
  rw [hx, hy]
  rfl

theorem rereads_parameterValue {v : ParameterValue} (h : Number.AllFinite v.numbers) : Rereads v := by
  cases v with
  | number x =>
    have hx : decode? (encode x) = some x := rereads_float (h x List.mem_cons_self)
    show (decode? (encode x)).bind (fun x => some (ParameterValue.number x)) = _
    rw [hx]
    rfl
  | point p =>
    have hp : decode? (encode p) = some p := rereads_point h
    show (decode? (encode p)).bind (fun p => some (ParameterValue.point p)) = _
    rw [hp]
    rfl
  | vector v =>
    have hv : decode? (encode v) = some v := rereads_vec h
    show (decode? (encode v)).bind (fun v => some (ParameterValue.vector v)) = _
    rw [hv]
    rfl

theorem ParameterKey.find?_text (key : ParameterKey) : all.find? (·.text == key.text) = some key := by
  cases key <;> decide

theorem rereads_parameters {ps : Parameters} (h : Number.AllFinite ps.numbers) : Rereads ps :=
  rereads_table ParameterKey.find?_text fun v hv =>
    rereads_parameterValue fun x hx => h x (List.mem_flatMap.mpr ⟨v, hv, hx⟩)

/-! ### Constraints -/

/-- A point in time whose text is read as it. -/
def Timestamp.IsRead (t : Timestamp) : Prop := ofText? t.text = some t

instance (t : Timestamp) : Decidable t.IsRead := inferInstanceAs (Decidable (_ = some t))

theorem rereads_timestamp {t : Timestamp} (h : t.IsRead) : Rereads t := by
  show (some t.text).bind Timestamp.ofText? = some t
  rw [Option.bind_some]
  exact h

theorem rereads_metadata {m : Metadata} (hcreated : m.created.IsRead) (hmodified : m.modified.IsRead) : Rereads m := by
  have hc := required_encode (rereads_timestamp hcreated)
  have hm := required_encode (rereads_timestamp hmodified)
  have hd : omittable (m.description.map encode) = some m.description :=
    omittable_encode rfl fun s _ => rereads_string s
  refine (bind_record (by simp) _).trans ?_
  simp [hc, hm, hd]

/-- A constraint from its document, whatever stands for its parameters, its verdict and its priority. -/
theorem decode?_constraint {c : Constraint} {parameters satisfied priority : Option Value} {ps : Parameters}
    {verdict : Bool} {p : Priority} (hparameters : defaulted .empty parameters = some ps)
    (hsatisfied : defaulted false satisfied = some verdict) (hpriority : defaulted .normal priority = some p)
    (hcreated : c.metadata.created.IsRead) (hmodified : c.metadata.modified.IsRead) :
    decode? (.record [("id", some (encode c.id)), ("constraint_type", some (encode c.kind)),
      ("entity_ids", some (encode c.entities)), ("parameters", parameters), ("active", some (encode c.active)),
      ("satisfied", satisfied), ("priority", priority), ("metadata", some (encode c.metadata))]) =
    some { c with parameters := ps, satisfied := verdict, priority := p } := by
  have hid := required_encode (rereads_constraintId c.id)
  have hkind := required_encode (rereads_constraintKind c.kind)
  have hentities : required (some (encode c.entities)) = some c.entities :=
    required_encode (rereads_list fun id _ => rereads_entityId id)
  have hactive := required_encode (rereads_bool c.active)
  have hmetadata := required_encode (rereads_metadata hcreated hmodified)
  refine (bind_record (by simp) _).trans ?_
  simp only [List.map_cons, List.map_nil, Option.bind_eq_bind, Option.bind_some, hid, hkind, hentities, hparameters,
    hactive, hsatisfied, hpriority, hmetadata]
  rfl

theorem rereads_constraint {c : Constraint} (h : Number.AllFinite c.parameters.numbers)
    (hcreated : c.metadata.created.IsRead) (hmodified : c.metadata.modified.IsRead) : Rereads c :=
  decode?_constraint (rereads_parameters h) (rereads_bool c.satisfied) (rereads_priority c.priority) hcreated hmodified

/-! ### What is left out -/

/-- The object without the members of some names. -/
def Json.Value.without (names : List String) : Value → Value
  | .object members => .object (members.filter fun m => m.1 ∉ names.map some)
  | v => v

/-- To take members away from a record is to leave out their fields. -/
theorem without_record (names : List String) (fields : List (String × Option Value)) :
    (Value.record fields).without names = .record (fields.map fun f => (f.1, if f.1 ∈ names then none else f.2)) := by
  have hwritten : (written fields).filter (fun m => m.1 ∉ names) =
      written (fields.map fun f => (f.1, if f.1 ∈ names then none else f.2)) := by
    induction fields with
    | nil => rfl
    | cons f rest ih =>
      obtain ⟨name, value⟩ := f
      by_cases hname : name ∈ names <;> cases value <;> simp_all [written]
  have hfilter : ((written fields).map fun m => ((some m.1, m.2) : Literal × Value)).filter
      (fun m => m.1 ∉ names.map some) =
      ((written fields).filter fun m => m.1 ∉ names).map fun m => (some m.1, m.2) := by
    rw [List.filter_map]
    simp only [Function.comp_def, List.mem_map_of_injective (Option.some_injective String)]
  show Value.object (((written fields).map fun m => ((some m.1, m.2) : Literal × Value)).filter _) = _
  rw [hfilter, hwritten]
  rfl

namespace Constraint

/-- What a document of a constraint can do without. -/
def spare : List String := ["parameters", "satisfied", "priority"]

/-- The constraint as it is read without some of this. -/
def abridged (names : List String) (c : Constraint) : Constraint :=
  { c with
    parameters := if "parameters" ∈ names then .empty else c.parameters
    satisfied := if "satisfied" ∈ names then false else c.satisfied
    priority := if "priority" ∈ names then .normal else c.priority }

end Constraint

/-- **A constraint is read without its parameters, its verdict and its priority.** -/
theorem decode?_without {c : Constraint} {names : List String} (hspare : names ⊆ Constraint.spare)
    (h : Number.AllFinite c.parameters.numbers) (hcreated : c.metadata.created.IsRead)
    (hmodified : c.metadata.modified.IsRead) : decode? ((encode c).without names) = some (c.abridged names) := by
  have hkept (name : String) (hname : name ∉ Constraint.spare) : name ∉ names := fun hmem => hname (hspare hmem)
  show decode? ((Value.record _).without names) = _
  rw [without_record]
  simp only [List.map_cons, List.map_nil, if_neg (hkept "id" (by decide)),
    if_neg (hkept "constraint_type" (by decide)), if_neg (hkept "entity_ids" (by decide)),
    if_neg (hkept "active" (by decide)), if_neg (hkept "metadata" (by decide))]
  refine decode?_constraint ?_ ?_ ?_ hcreated hmodified
  · split
    · rfl
    · exact rereads_parameters h
  · split
    · rfl
    · exact rereads_bool c.satisfied
  · split
    · rfl
    · exact rereads_priority c.priority

/-! ### Requests -/

/-- The numbers of a request. -/
def Request.numbers (r : Request) : List Float := r.value.toList ++ r.point.toList.flatMap Point.coordinates

theorem rereads_request {r : Request} (h : Number.AllFinite r.numbers) : Rereads r := by
  obtain ⟨hvalue, hpoint⟩ := List.forall_mem_append.mp h
  have hkind := required_encode (rereads_constraintKind r.kind)
  have hentities : required (some (encode r.entities)) = some r.entities :=
    required_encode (rereads_list fun id _ => rereads_entityId id)
  have hpriority : omittable (r.priority.map encode) = some r.priority :=
    omittable_encode rfl fun p _ => rereads_priority p
  have hdescription : omittable (r.description.map encode) = some r.description :=
    omittable_encode rfl fun s _ => rereads_string s
  refine (bind_record (by simp) _).trans ?_
  simp only [List.map_cons, List.map_nil, Option.bind_eq_bind, Option.bind_some, hkind, hentities,
    omittable_float hvalue, omittable_point hpoint, hpriority, hdescription]
  rfl

end Drafting
