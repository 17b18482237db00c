import Drafting.Proofs.Admission.Table
import Drafting.Proofs.Number.Order

/-! What the check accepts, and what it says otherwise.

`Admissible` is what the table asks for, without an order. `Refusal` is the order: an
error of a stage, for constraints that all earlier stages have passed, with the first
place where the stage fails. Each stage is shown to fail exactly as a refusal says, and
the check is its stages one after the other, so it accepts what is admissible and
answers with the refusal otherwise (`check_follows_table`). The places that are looked at by
their number are all there, because the number of entities has been checked before. -/
namespace Drafting

/-! ### What is asked of the parameters -/

/-- The parameters have what the table asks for. -/
def Demand.Met (parameters : Parameters) : Demand → Prop
  | .nothing => True
  | .number key positive => ∃ x, parameters.get? key = some (.number x) ∧ x.isFinite = true ∧ (positive = true → 0.0 < x)
  | .offset => ∃ v, parameters.get? .offset = some (.vector v) ∧ v.isFinite = true ∧ ¬ v.norm < epsilon
  | .point => ∀ value, parameters.get? .point = some value → ∃ p, value = .point p ∧ p.isFinite = true

/-- The parameter that cannot be left out. -/
def Demand.required? : Demand → Option ParameterKey
  | .number key _ => some key
  | .offset => some .offset
  | _ => none

/-- What is wrong with the value of a parameter. -/
inductive Demand.Faulty : Demand → ParameterKey → ParameterValue → ParameterFault → Prop where
  | notNumber {key : ParameterKey} {positive : Bool} {value : ParameterValue} (h : ∀ x, value ≠ .number x) :
    Faulty (.number key positive) key value (.notNumber value)
  | notFinite {key : ParameterKey} {positive : Bool} {x : Float} (h : x.isFinite = false) :
    Faulty (.number key positive) key (.number x) (.notFinite x)
  | notPositive {key : ParameterKey} {x : Float} (hfinite : x.isFinite = true) (h : ¬ 0.0 < x) :
    Faulty (.number key true) key (.number x) (.notPositive x)
  | notVector {value : ParameterValue} (h : ∀ v, value ≠ .vector v) : Faulty .offset .offset value (.notVector value)
  | offsetNotFinite {v : Vec} (h : v.isFinite = false) : Faulty .offset .offset (.vector v) .offsetNotFinite
  | offsetZero {v : Vec} (hfinite : v.isFinite = true) (h : v.norm < epsilon) :
    Faulty .offset .offset (.vector v) .offsetZero
  | notPoint {value : ParameterValue} (h : ∀ p, value ≠ .point p) : Faulty .point .point value (.notPoint value)
  | pointNotFinite {p : Point} (h : p.isFinite = false) : Faulty .point .point (.point p) .pointNotFinite

namespace Demand

section Faults
variable {demand : Demand} {key key' : ParameterKey} {value value' : ParameterValue} {fault fault' : ParameterFault}

theorem Faulty.key_unique (h : demand.Faulty key value fault) (h' : demand.Faulty key' value' fault') :
    key = key' := by
  cases h <;> cases h' <;> rfl

theorem Faulty.unique (h : demand.Faulty key value fault) (h' : demand.Faulty key value fault') :
    fault = fault' := by
  cases h <;> cases h' <;> simp_all

end Faults

end Demand

/-- Some row of the table has this many places. -/
def Listing.Takes (l : Listing) (n : Nat) : Prop := ∃ row ∈ l.rows, row.length = n ∨ l.more = true ∧ row.length ≤ n

/-- The kinds of the entities that exist. -/
def Snapshot.kinds (snapshot : Snapshot) (ids : List EntityId) : List EntityKind := ids.filterMap snapshot.kind?

namespace Admission

variable {snapshot : Snapshot} {kind : ConstraintKind} {ids : List EntityId} {parameters : Parameters}
  {error : AdmissionError}

/-- The entities are those of a row of the table. -/
structure Placed (snapshot : Snapshot) (kind : ConstraintKind) (ids : List EntityId) : Prop where
  known : ∀ id ∈ ids, id ∈ snapshot
  number : kind.listing.Takes ids.length
  distinct : ids.Nodup
  kinds : kind.Lists (snapshot.kinds ids)

/-- The constraint is one of the table. -/
structure Admissible (snapshot : Snapshot) (kind : ConstraintKind) (ids : List EntityId) (parameters : Parameters) : Prop
    extends Placed snapshot kind ids where
  met : kind.listing.demand.Met parameters

/-- What is wrong with the parameters of a kind. -/
inductive Unmet (kind : ConstraintKind) (parameters : Parameters) (demand : Demand) : AdmissionError → Prop where
  | missing {key : ParameterKey} (hrequired : demand.required? = some key) (hnone : parameters.get? key = none) :
    Unmet kind parameters demand (.missingParameter kind key)
  | faulty {key : ParameterKey} {value : ParameterValue} {fault : ParameterFault}
    (hvalue : parameters.get? key = some value) (hfault : demand.Faulty key value fault) :
    Unmet kind parameters demand (.badParameter kind key fault)

/-- Why the constraint is none of the table. -/
inductive Refusal (snapshot : Snapshot) (kind : ConstraintKind) (ids : List EntityId) (parameters : Parameters) :
    AdmissionError → Prop where
  | unknown {before after : List EntityId} {id : EntityId} (hids : ids = before ++ id :: after)
    (hbefore : ∀ i ∈ before, i ∈ snapshot) (hid : id ∉ snapshot) :
    Refusal snapshot kind ids parameters (.unknownEntity id)
  | number (hknown : ∀ id ∈ ids, id ∈ snapshot) (hnumber : ¬ kind.listing.Takes ids.length) :
    Refusal snapshot kind ids parameters (.wrongArity kind kind.arity ids.length)
  | repeated {before after : List EntityId} {id : EntityId} (hknown : ∀ id ∈ ids, id ∈ snapshot)
    (hnumber : kind.listing.Takes ids.length) (hids : ids = before ++ id :: after) (hbefore : before.Nodup)
    (hid : id ∈ before) : Refusal snapshot kind ids parameters (.repeatedEntity kind id)
  | kinds {before after : List EntityId} {id : EntityId} {k : EntityKind} {x : Expected}
    (hknown : ∀ id ∈ ids, id ∈ snapshot) (hnumber : kind.listing.Takes ids.length) (hdistinct : ids.Nodup)
    (hids : ids = before ++ id :: after) (hk : snapshot.kind? id = some k)
    (hstops : Stops kind (snapshot.kinds before) k x) :
    Refusal snapshot kind ids parameters (.wrongEntity kind id before.length x k)
  | parameters (hplaced : Placed snapshot kind ids) {error : AdmissionError}
    (h : Unmet kind parameters kind.listing.demand error) :
    Refusal snapshot kind ids parameters error

/-! ### Presence, number and repetition -/

theorem kinds_eq_ok {found : List (EntityId × EntityKind)} :
    Admission.kinds snapshot ids = .ok found ↔ found.map Prod.fst = ids ∧ ∀ e ∈ found, snapshot.kind? e.1 = some e.2 := by
  induction ids generalizing found with
  | nil =>
    rw [kinds_nil, List.map_eq_nil_iff]
    exact ⟨fun h => ⟨h, by simp [h]⟩, fun h => h.1⟩
  | cons id rest ih =>
    rw [kinds_cons]
    constructor
    · intro ⟨k, hk, more, hmore, hfound⟩
      obtain ⟨hids, hkinds⟩ := ih.mp hmore
      rw [hfound, List.map_cons, hids]
      exact ⟨rfl, List.forall_mem_cons.mpr ⟨hk, hkinds⟩⟩
    · intro ⟨hids, hkinds⟩
      obtain ⟨e, more, rfl, rfl, hmore⟩ := List.map_eq_cons_iff.mp hids
      obtain ⟨hk, hkinds⟩ := List.forall_mem_cons.mp hkinds
      exact ⟨e.2, hk, more, ih.mpr ⟨hmore, hkinds⟩, rfl⟩

/-- A list with a first member is split there, or behind it. -/
theorem exists_split_cons {α : Type} {first : α} {rest : List α} {P : List α → α → Prop} :
    (∃ before x after, first :: rest = before ++ x :: after ∧ P before x) ↔
      P [] first ∨ ∃ before x after, rest = before ++ x :: after ∧ P (first :: before) x := by
  constructor
  · intro ⟨before, x, after, hsplit, h⟩
    rcases List.cons_eq_append_iff.mp hsplit with ⟨rfl, hcons⟩ | ⟨more, rfl, hcons⟩
    · exact .inl ((List.cons.inj hcons).1 ▸ h)
    · exact .inr ⟨more, x, after, hcons, h⟩
  · rintro (h | ⟨before, x, after, hsplit, h⟩)
    · exact ⟨[], first, rest, rfl, h⟩
    · exact ⟨first :: before, x, after, by rw [hsplit, List.cons_append], h⟩

theorem kinds_eq_error : Admission.kinds snapshot ids = .error error ↔ ∃ before id after,
    ids = before ++ id :: after ∧ (∀ i ∈ before, i ∈ snapshot) ∧ id ∉ snapshot ∧ error = .unknownEntity id := by
  induction ids with
  | nil => simp [Admission.kinds]
  | cons first rest ih =>
    rw [exists_split_cons, Admission.kinds]
    cases hfirst : snapshot.get? first with
    | none =>
      have hunknown : first ∉ snapshot := by simp [Table.mem_iff, hfirst]
      simp [hunknown, eq_comm]
    | some e =>
      have hknown : first ∈ snapshot := by simp [Table.mem_iff, hfirst]
      have hrest : (Admission.kinds snapshot rest).map ((first, e.kind) :: ·) = .error error ↔
          Admission.kinds snapshot rest = .error error := by
        cases Admission.kinds snapshot rest <;> simp [Except.map]
      simp only [hrest, ih, hknown, List.forall_mem_cons, true_and, not_true_eq_false, false_and, and_false, false_or]

theorem accepts_iff_takes {n : Nat} : kind.arity.accepts n = true ↔ kind.listing.Takes n := by
  have hrows : kind.listing.rows ≠ [] := by cases kind <;> simp [ConstraintKind.listing]
  obtain ⟨row, hrow⟩ := List.exists_mem_of_ne_nil _ hrows
  constructor
  · intro h
    exact ⟨row, hrow, (ConstraintKind.accepts_iff_length row hrow).mp h⟩
  · rintro ⟨row, hrow, hlength⟩
    exact (ConstraintKind.accepts_iff_length row hrow).mpr hlength

theorem accepts_eq_false {n : Nat} (h : ¬ kind.listing.Takes n) : kind.arity.accepts n = false := by
  rw [← Bool.not_eq_true, accepts_iff_takes]
  exact h

theorem firstRepeated?_eq_some {seen : List EntityId} {id : EntityId} (hseen : seen.Nodup) :
    firstRepeated? seen ids = some id ↔ ∃ before x after, ids = before ++ x :: after ∧ (seen ++ before).Nodup ∧
      x ∈ seen ++ before ∧ x = id := by
  induction ids generalizing seen with
  | nil => simp [firstRepeated?]
  | cons first rest ih =>
    rw [exists_split_cons, firstRepeated?, List.append_nil]
    split
    · rename_i hfirst
      have hlater (before : List EntityId) : ¬ (seen ++ first :: before).Nodup := fun h =>
        (List.nodup_append.mp h).2.2 first hfirst first List.mem_cons_self rfl
      simp [hseen, hfirst, hlater]
    · rename_i hfirst
      have hnodup : (seen ++ [first]).Nodup := by
        rw [List.nodup_append_comm]
        exact List.nodup_cons.mpr ⟨hfirst, hseen⟩
      simp [ih hnodup, hfirst]

/-! ### Kinds -/

theorem kinds_map_fst {found : List (EntityId × EntityKind)} (h : ∀ e ∈ found, snapshot.kind? e.1 = some e.2) :
    snapshot.kinds (found.map Prod.fst) = found.map Prod.snd := by
  rw [Snapshot.kinds, List.filterMap_map, ← List.filterMap_eq_map]
  exact List.filterMap_congr h

section Found
variable {found : List (EntityId × EntityKind)} (hfound : Admission.kinds snapshot ids = .ok found)
include hfound

theorem length_found : found.length = ids.length := by
  rw [← (kinds_eq_ok.mp hfound).1, List.length_map]

theorem mismatch_eq_none (harity : kind.arity.accepts ids.length = true) :
    firstMismatch? kind 0 (places kind (found.head?.map Prod.snd)) found = none ↔ kind.Lists (snapshot.kinds ids) := by
  obtain ⟨hids, hkinds⟩ := kinds_eq_ok.mp hfound
  rw [firstMismatch?_eq_iff (by rwa [length_found hfound]), ← hids, kinds_map_fst hkinds]
  constructor
  · intro h
    cases h with
    | through hbegins => exact hbegins.lists (by rwa [List.nil_append, List.length_map, length_found hfound])
  · exact fun h => .through h.begins

theorem mismatch_eq_some (harity : kind.arity.accepts ids.length = true) :
    firstMismatch? kind 0 (places kind (found.head?.map Prod.snd)) found = some error ↔ ∃ before id after k x,
      ids = before ++ id :: after ∧ snapshot.kind? id = some k ∧ Stops kind (snapshot.kinds before) k x ∧
        error = .wrongEntity kind id before.length x k := by
  obtain ⟨hids, hkinds⟩ := kinds_eq_ok.mp hfound
  rw [firstMismatch?_eq_iff (by rwa [length_found hfound])]
  constructor
  · intro h
    cases h with
    | @stopped passed rest id k x hsplit hstops =>
      rw [hsplit, List.forall_mem_append, List.forall_mem_cons] at hkinds
      rw [List.nil_append, ← kinds_map_fst hkinds.1] at hstops
      refine ⟨passed.map Prod.fst, id, rest.map Prod.fst, k, x, ?_, hkinds.2.1, hstops, ?_⟩
      · rw [← hids, hsplit, List.map_append, List.map_cons]
      · rw [Nat.zero_add, List.length_map]
  · intro ⟨before, id, after, k, x, hsplit, hk, hstops, herror⟩
    rw [hsplit] at hids
    obtain ⟨passed, rest, rfl, rfl, hrest⟩ := List.map_eq_append_iff.mp hids
    obtain ⟨⟨id, k'⟩, rest, rfl, rfl, _⟩ := List.map_eq_cons_iff.mp hrest
    rw [List.forall_mem_append, List.forall_mem_cons] at hkinds
    obtain rfl : k' = k := Option.some.inj (hkinds.2.1.symm.trans hk)
    rw [kinds_map_fst hkinds.1] at hstops
    rw [herror, List.length_map, ← Nat.zero_add passed.length]
    exact .stopped rfl hstops

end Found

/-! ### Parameters -/

theorem Unmet.unique {demand : Demand} {error' : AdmissionError} (h : Unmet kind parameters demand error)
    (h' : Unmet kind parameters demand error') : error = error' := by
  cases h with
  | missing hrequired hnone =>
    cases h' with
    | missing hrequired' => rw [Option.some.inj (hrequired.symm.trans hrequired')]
    | faulty hvalue hfault => cases hfault <;> simp_all [Demand.required?]
  | faulty hvalue hfault =>
    cases h' with
    | missing hrequired hnone => cases hfault <;> simp_all [Demand.required?]
    | faulty hvalue' hfault' =>
      obtain rfl := hfault.key_unique hfault'
      obtain rfl := Option.some.inj (hvalue.symm.trans hvalue')
      rw [hfault.unique hfault']

theorem Unmet.not_met {demand : Demand} (h : Unmet kind parameters demand error) : ¬ demand.Met parameters := by
  cases h with
  | missing hrequired hnone => cases demand <;> simp_all [Demand.required?, Demand.Met]
  | faulty hvalue hfault => cases hfault <;> simp_all [Demand.Met]

/-- The answer is the one that the demand gives. -/
structure Judges (kind : ConstraintKind) (parameters : Parameters) (demand : Demand) (answer : Except AdmissionError Unit) :
    Prop where
  ok : answer = .ok () ↔ demand.Met parameters
  error : ∀ error, answer = .error error ↔ Unmet kind parameters demand error

theorem Judges.of_met {demand : Demand} (h : demand.Met parameters) : Judges kind parameters demand (.ok ()) :=
  ⟨iff_of_true rfl h, fun _ => iff_of_false nofun fun hunmet => hunmet.not_met h⟩

theorem Judges.of_unmet {demand : Demand} (h : Unmet kind parameters demand error) :
    Judges kind parameters demand (.error error) := by
  refine ⟨iff_of_false nofun h.not_met, fun error' => ⟨?_, fun h' => by rw [h.unique h']⟩⟩
  intro heq
  cases heq
  exact h

theorem judges_value {key : ParameterKey} {positive : Bool} (hkey : kind.valueKey? = some key)
    (hpositive : positive = true ↔ key ≠ .angle) :
    Judges kind parameters (.number key positive) (checkValue kind parameters) := by
  unfold checkValue
  simp only [hkey]
  cases hvalue : parameters.get? key with
  | none => exact .of_unmet (.missing rfl hvalue)
  | some value =>
    cases value with
    | point p => exact .of_unmet (.faulty hvalue (.notNumber nofun))
    | vector v => exact .of_unmet (.faulty hvalue (.notNumber nofun))
    | number x =>
      dsimp only
      cases hfinite : x.isFinite with
      | false => exact .of_unmet (.faulty hvalue (.notFinite hfinite))
      | true =>
        have hle : ¬ x ≤ 0.0 ↔ 0.0 < x := Number.not_le_iff (Number.isNaN_of_isFinite hfinite) rfl
        simp only [Bool.not_true, Bool.false_eq_true, if_false, ← hpositive]
        split
        · rename_i hrefused
          obtain ⟨rfl, hrefused⟩ := hrefused
          exact .of_unmet (.faulty hvalue (.notPositive hfinite fun hless => hle.mpr hless hrefused))
        · rename_i haccepted
          exact .of_met ⟨x, hvalue, hfinite, fun hpos => hle.mp fun hrefused => haccepted ⟨hpos, hrefused⟩⟩

theorem judges_offset : Judges .pattern parameters .offset (checkPoint .pattern parameters) := by
  unfold checkPoint
  dsimp only
  cases hvalue : parameters.get? .offset with
  | none => exact .of_unmet (.missing rfl hvalue)
  | some value =>
    cases value with
    | number x => exact .of_unmet (.faulty hvalue (.notVector nofun))
    | point p => exact .of_unmet (.faulty hvalue (.notVector nofun))
    | vector v =>
      dsimp only
      cases hfinite : v.isFinite with
      | false => exact .of_unmet (.faulty hvalue (.offsetNotFinite hfinite))
      | true =>
        simp only [Bool.not_true, Bool.false_eq_true, if_false]
        split
        · exact .of_unmet (.faulty hvalue (.offsetZero hfinite ‹_›))
        · exact .of_met ⟨v, hvalue, hfinite, ‹_›⟩

section Point
variable (hkind : kind = .fix ∨ kind = .tangent)
include hkind

theorem checkPoint_of_none (h : parameters.get? .point = none) : checkPoint kind parameters = .ok () := by
  rcases hkind with rfl | rfl <;> simp only [checkPoint, h]

theorem checkPoint_of_point {p : Point} (h : parameters.get? .point = some (.point p)) :
    checkPoint kind parameters =
      if p.isFinite then .ok () else .error (.badParameter kind .point .pointNotFinite) := by
  rcases hkind with rfl | rfl <;> simp only [checkPoint, h]

theorem checkPoint_of_other {found : ParameterValue} (h : parameters.get? .point = some found)
    (hother : ∀ p, found ≠ .point p) :
    checkPoint kind parameters = .error (.badParameter kind .point (.notPoint found)) := by
  cases found with
  | point p => exact absurd rfl (hother p)
  | number x | vector v => rcases hkind with rfl | rfl <;> simp only [checkPoint, h]

theorem judges_point : Judges kind parameters .point (checkPoint kind parameters) := by
  cases hvalue : parameters.get? .point with
  | none =>
    rw [checkPoint_of_none hkind hvalue]
    exact .of_met fun value hsome => by rw [hvalue] at hsome; cases hsome
  | some value =>
    by_cases hpoint : ∃ p, value = .point p
    · obtain ⟨p, rfl⟩ := hpoint
      rw [checkPoint_of_point hkind hvalue]
      cases hfinite : p.isFinite with
      | false => exact .of_unmet (.faulty hvalue (.pointNotFinite hfinite))
      | true => exact .of_met fun value hsome => ⟨p, Option.some.inj (hsome.symm.trans hvalue), hfinite⟩
    · have hother : ∀ p, value ≠ .point p := fun p hp => hpoint ⟨p, hp⟩
      rw [checkPoint_of_other hkind hvalue hother]
      exact .of_unmet (.faulty hvalue (.notPoint hother))

end Point

/-- The last two stages judge the parameters. -/
theorem judges_parameters :
    Judges kind parameters kind.listing.demand (checkValue kind parameters >>= fun _ => checkPoint kind parameters) := by
  have hvalue (hnone : kind.valueKey? = none) : (checkValue kind parameters >>= fun _ => checkPoint kind parameters) =
      checkPoint kind parameters := by
    simp [checkValue, hnone, bind, Except.bind]
  have hpoint (hok : checkPoint kind parameters = .ok ()) :
      (checkValue kind parameters >>= fun _ => checkPoint kind parameters) = checkValue kind parameters := by
    rw [hok]
    cases checkValue kind parameters <;> rfl
  cases kind
  case length | radius | diameter | distance | offsetDistance | angle =>
    rw [hpoint rfl]
    exact judges_value rfl (by decide)
  case pattern =>
    rw [hvalue rfl]
    exact judges_offset
  case fix | tangent =>
    rw [hvalue rfl]
    exact judges_point (by simp)
  all_goals
    rw [hvalue rfl]
    exact .of_met trivial

/-! ### The whole check -/

theorem check_of_unknown (h : Admission.kinds snapshot ids = .error error) :
    check snapshot kind ids parameters = .error error := by
  rw [check, h]
  rfl

theorem check_of_found {found : List (EntityId × EntityKind)} (h : Admission.kinds snapshot ids = .ok found) :
    check snapshot kind ids parameters =
      if kind.arity.accepts ids.length = false then .error (.wrongArity kind kind.arity ids.length)
      else match firstRepeated? [] ids with
        | some id => .error (.repeatedEntity kind id)
        | none => match firstMismatch? kind 0 (places kind (found.head?.map Prod.snd)) found with
          | some error => .error error
          | none => checkValue kind parameters >>= fun _ => checkPoint kind parameters := by
  rw [check, h]
  simp only [bind, Except.bind, throw, throwThe, MonadExceptOf.throw]
  cases kind.arity.accepts ids.length <;> cases firstRepeated? [] ids <;>
    cases firstMismatch? kind 0 (places kind (found.head?.map Prod.snd)) found <;> rfl

theorem check_of_arity {found : List (EntityId × EntityKind)} (h : Admission.kinds snapshot ids = .ok found)
    (harity : kind.arity.accepts ids.length = true) :
    check snapshot kind ids parameters =
      match firstRepeated? [] ids with
      | some id => .error (.repeatedEntity kind id)
      | none => match firstMismatch? kind 0 (places kind (found.head?.map Prod.snd)) found with
        | some error => .error error
        | none => checkValue kind parameters >>= fun _ => checkPoint kind parameters := by
  rw [check_of_found h, if_neg (by rw [harity]; exact Bool.noConfusion)]

theorem known_iff : (∃ found, Admission.kinds snapshot ids = .ok found) ↔ ∀ id ∈ ids, id ∈ snapshot := by
  simp only [exists_kinds_iff, Snapshot.kind?, Option.isSome_map, Table.mem_iff]

theorem distinct_iff : firstRepeated? [] ids = none ↔ ids.Nodup := by
  simp [firstRepeated?_eq_none]

theorem check_eq_ok_iff : check snapshot kind ids parameters = .ok () ↔ Admissible snapshot kind ids parameters := by
  rw [check_eq_ok]
  constructor
  · intro h
    obtain ⟨found, hkinds, hplaces⟩ := h.kinds
    have hparameters : (checkValue kind parameters >>= fun _ => checkPoint kind parameters) = .ok () :=
      bind_eq_ok.mpr ⟨(), h.value, h.point⟩
    exact {
      known := known_iff.mp ⟨found, hkinds⟩
      number := accepts_iff_takes.mp h.arity
      distinct := distinct_iff.mp h.distinct
      kinds := (mismatch_eq_none hkinds h.arity).mp hplaces
      met := judges_parameters.ok.mp hparameters }
  · intro h
    obtain ⟨found, hfound⟩ := known_iff.mpr h.known
    have harity := accepts_iff_takes.mpr h.number
    obtain ⟨_, hvalue, hpoint⟩ := bind_eq_ok.mp (judges_parameters.ok.mpr h.met)
    exact {
      kinds := ⟨found, hfound, (mismatch_eq_none hfound harity).mpr h.kinds⟩
      arity := harity
      distinct := distinct_iff.mpr h.distinct
      value := hvalue
      point := hpoint }

theorem refusal_of_check (h : check snapshot kind ids parameters = .error error) :
    Refusal snapshot kind ids parameters error := by
  cases hkinds : Admission.kinds snapshot ids with
  | error e =>
    rw [check_of_unknown hkinds] at h
    cases h
    obtain ⟨before, id, after, hids, hbefore, hid, rfl⟩ := kinds_eq_error.mp hkinds
    exact .unknown hids hbefore hid
  | ok found =>
    have hknown := known_iff.mp ⟨found, hkinds⟩
    by_cases htakes : kind.listing.Takes ids.length
    case neg =>
      rw [check_of_found hkinds, if_pos (accepts_eq_false htakes)] at h
      cases h
      exact .number hknown htakes
    have harity := accepts_iff_takes.mpr htakes
    rw [check_of_arity hkinds harity] at h
    split at h
    · rename_i id hrepeated
      cases h
      obtain ⟨before, _, after, hids, hbefore, hid, rfl⟩ := (firstRepeated?_eq_some List.nodup_nil).mp hrepeated
      exact .repeated hknown htakes hids hbefore hid
    rename_i hdistinct
    rw [distinct_iff] at hdistinct
    split at h
    · rename_i e hmismatch
      cases h
      obtain ⟨before, id, after, k, x, hids, hk, hstops, rfl⟩ := (mismatch_eq_some hkinds harity).mp hmismatch
      exact .kinds hknown htakes hdistinct hids hk hstops
    · rename_i hmismatch
      have hlists := (mismatch_eq_none hkinds harity).mp hmismatch
      exact .parameters ⟨hknown, htakes, hdistinct, hlists⟩ ((judges_parameters.error error).mp h)

theorem check_of_refusal (h : Refusal snapshot kind ids parameters error) :
    check snapshot kind ids parameters = .error error := by
  cases h with
  | unknown hids hbefore hid => exact check_of_unknown (kinds_eq_error.mpr ⟨_, _, _, hids, hbefore, hid, rfl⟩)
  | number hknown hnumber =>
    obtain ⟨found, hfound⟩ := known_iff.mpr hknown
    rw [check_of_found hfound, if_pos (accepts_eq_false hnumber)]
  | repeated hknown hnumber hids hbefore hid =>
    obtain ⟨found, hfound⟩ := known_iff.mpr hknown
    have hrepeated := (firstRepeated?_eq_some List.nodup_nil).mpr ⟨_, _, _, hids, hbefore, hid, rfl⟩
    rw [check_of_arity hfound (accepts_iff_takes.mpr hnumber), hrepeated]
  | kinds hknown hnumber hdistinct hids hk hstops =>
    obtain ⟨found, hfound⟩ := known_iff.mpr hknown
    have harity := accepts_iff_takes.mpr hnumber
    have hmismatch := (mismatch_eq_some hfound harity).mpr ⟨_, _, _, _, _, hids, hk, hstops, rfl⟩
    rw [check_of_arity hfound harity, distinct_iff.mpr hdistinct, hmismatch]
  | parameters hplaced h =>
    obtain ⟨found, hfound⟩ := known_iff.mpr hplaced.known
    have harity := accepts_iff_takes.mpr hplaced.number
    have hmismatch := (mismatch_eq_none hfound harity).mpr hplaced.kinds
    rw [check_of_arity hfound harity, distinct_iff.mpr hplaced.distinct, hmismatch]
    exact (judges_parameters.error error).mpr h

/-- No place is looked at that is not there. -/
theorem length_places_le {n : Nat} (h : kind.listing.Takes n) (first : Option EntityKind) :
    (places kind first).length ≤ n := by
  have harity := accepts_iff_takes.mpr h
  cases kind
  case tangent =>
    obtain rfl : n = 2 := eq_of_beq harity
    simp only [places]
    split <;> exact Nat.le_refl 2
  all_goals
    simp [ConstraintKind.arity, Arity.accepts] at harity
    simp [places, harity]

/-- **The check follows the table.** It accepts what is in the table, and for everything else it names the
first stage that fails and the first place where. -/
theorem check_follows_table (snapshot : Snapshot) (kind : ConstraintKind) (ids : List EntityId) (parameters : Parameters) :
    (check snapshot kind ids parameters = .ok () ↔ Admissible snapshot kind ids parameters) ∧
    (∀ error, check snapshot kind ids parameters = .error error ↔ Refusal snapshot kind ids parameters error) ∧
    (kind.arity.accepts ids.length = true → ∀ first, (places kind first).length ≤ ids.length) :=
  ⟨check_eq_ok_iff, fun _ => ⟨refusal_of_check, check_of_refusal⟩,
    fun harity => length_places_le (accepts_iff_takes.mp harity)⟩

/-- Twice an entity that is not there: the earlier stage has the word. -/
example : check .empty .horizontal [⟨⟨1⟩⟩, ⟨⟨1⟩⟩] .empty = .error (.unknownEntity ⟨⟨1⟩⟩) := by rfl

end Admission

end Drafting
