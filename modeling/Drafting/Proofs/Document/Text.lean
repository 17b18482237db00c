import Drafting.Document.Settings
import Drafting.Proofs.Document.Constraint
import Drafting.Proofs.Json.Text

/-! Documents as texts.

A value of the domain is written as JSON, the JSON as text, and back: that nothing is
lost (`Persists`) has two parts. The JSON has to be read as the value (`Rereads`), and
from the text as this JSON, for which its scalars must be legible. Texts, identifiers,
names, counts and priorities always are. So all that is left to ask for is that the
floating point numbers are finite and read from their texts, and the timestamps from
theirs (`documents_persist`). -/
namespace Drafting

namespace Json

/-- What is written for `a` as text is read as `a`. -/
def Persists {α : Type} [Codec α] (a : α) : Prop := (ofText? (encode a).render).bind decode? = some a

theorem persists {α : Type} [Codec α] {a : α} (hread : Rereads a) (hlegible : (encode a).Legible) : Persists a := by
  rw [Persists, ofText?_render hlegible]
  exact hread

/-! ### Legible documents -/

theorem legible_bool (b : Bool) : (encode b).Legible := .scalar trivial

theorem legible_string (s : String) : (encode s).Legible := .scalar rfl

theorem legible_float {x : Float} (h : Legible x) : (encode x).Legible := by
  show (if x.isFinite then Value.float x else .null).Legible
  rw [if_pos h.1]
  exact .scalar h

theorem legible_uint32 (n : UInt32) : (encode n).Legible := by
  have hsmall := n.toNat_lt
  refine .scalar ⟨?_, ?_⟩ <;> omega

theorem legible_int32 (n : Int32) : (encode n).Legible := by
  have hlow := n.le_toInt
  have hhigh := n.toInt_lt
  refine .scalar ⟨?_, ?_⟩ <;> omega

theorem legible_list {α : Type} [Codec α] {l : List α} (h : ∀ a ∈ l, (encode a).Legible) : (encode l).Legible :=
  .array (List.forall_mem_map.mpr h)

theorem legible_ofMembers {members : List (String × Value)} (h : ∀ m ∈ members, m.2.Legible) :
    (Value.ofMembers members).Legible :=
  .object (List.forall_mem_map.mpr fun _ _ => rfl) (List.forall_mem_map.mpr h)

/-- A record is legible if its fields are. -/
theorem legible_record {fields : List (String × Option Value)} (h : ∀ f ∈ fields, ∀ v ∈ f.2, v.Legible) :
    (Value.record fields).Legible := by
  refine legible_ofMembers fun m hm => ?_
  obtain ⟨f, hf, hm⟩ := List.mem_filterMap.mp hm
  obtain ⟨v, hv, rfl⟩ := Option.map_eq_some_iff.mp hm
  exact h f hf v hv

theorem legible_tagged {name : String} {data : Value} (h : data.Legible) : (Value.tagged name data).Legible :=
  legible_ofMembers (List.forall_mem_singleton.mpr h)

theorem legible_table {κ ν : Type} [Codec ν] (text : κ → String) {t : Table κ ν}
    (h : ∀ v ∈ t.values, (encode v).Legible) : (encodeTable text t).Legible :=
  legible_ofMembers (List.forall_mem_map.mpr fun e he => h e.2 (List.mem_map_of_mem he))

theorem legible_some {v : Value} (h : v.Legible) : ∀ w ∈ some v, w.Legible := by
  rintro _ ⟨⟩
  exact h

/-- A field is legible if what it holds is. -/
theorem legible_field {α : Type} [Codec α] {o : Option α} (h : ∀ a ∈ o, (encode a).Legible) :
    ∀ v ∈ o.map encode, v.Legible := by
  intro v hv
  obtain ⟨a, ha, rfl⟩ := Option.map_eq_some_iff.mp hv
  exact h a ha

end Json

open Json

/-! ### Geometry -/

theorem legible_point {p : Point} (h : ∀ x ∈ p.coordinates, Legible x) : (encode p).Legible := by
  refine .array (List.forall_mem_cons.mpr ⟨legible_float (h p.x (by simp [Point.coordinates])), ?_⟩)
  exact List.forall_mem_singleton.mpr (legible_float (h p.y (by simp [Point.coordinates])))

theorem legible_points {ps : List Point} (h : ∀ x ∈ ps.flatMap Point.coordinates, Legible x) : (encode ps).Legible :=
  legible_list fun p hp => legible_point fun x hx => h x (List.mem_flatMap.mpr ⟨p, hp, hx⟩)

/-- The tagged record of an entity is legible if its fields are. -/
theorem EntityKind.legible_record (k : EntityKind) {values : List (Option Value)}
    (h : ∀ o ∈ values, ∀ v ∈ o, v.Legible) : (k.record values).Legible :=
  legible_tagged (Json.legible_record fun f hf => h f.2 (List.of_mem_zip hf).2)

theorem legible_entity {e : Entity} (hcoordinates : ∀ x ∈ e.coordinates, Legible x)
    (hmeasures : ∀ x ∈ e.measures, Legible x) : (encode e).Legible := by
  refine EntityKind.legible_record _ ?_
  cases e with
  | point p => simpa using legible_point hcoordinates
  | line s e =>
    obtain ⟨hs, he⟩ := List.forall_mem_append.mp hcoordinates
    simpa using ⟨legible_point hs, legible_point he⟩
  | circle c r =>
    have hr := List.forall_mem_singleton.mp hmeasures
    simpa using ⟨legible_point hcoordinates, legible_float hr⟩
  | arc c r s e =>
    obtain ⟨hr, hs, he⟩ : Legible r ∧ Legible s ∧ Legible e := by simpa [Entity.measures] using hmeasures
    simpa using ⟨legible_point hcoordinates, legible_float hr, legible_float hs, legible_float he⟩
  | rectangle p w h =>
    obtain ⟨hw, hh⟩ : Legible w ∧ Legible h := by simpa [Entity.measures] using hmeasures
    simpa using ⟨legible_point hcoordinates, legible_float hw, legible_float hh⟩
  | polyline ps closed => simpa using ⟨legible_points hcoordinates, legible_bool closed⟩

theorem legible_map_point {p : Option Point} (h : ∀ x ∈ p.toList.flatMap Point.coordinates, Legible x) :
    ∀ v ∈ p.map encode, v.Legible :=
  legible_field fun q hq => legible_point fun x hx => h x (List.mem_flatMap.mpr ⟨q, Option.mem_toList.mpr hq, hx⟩)

theorem legible_map_float {x : Option Float} (h : ∀ y ∈ x.toList, Legible y) : ∀ v ∈ x.map encode, v.Legible :=
  legible_field fun y hy => legible_float (h y (Option.mem_toList.mpr hy))

theorem legible_map_points {ps : Option (List Point)}
    (h : ∀ x ∈ ps.toList.flatMap fun ps => ps.flatMap Point.coordinates, Legible x) : ∀ v ∈ ps.map encode, v.Legible :=
  legible_field fun qs hqs => legible_points fun x hx => h x (List.mem_flatMap.mpr ⟨qs, Option.mem_toList.mpr hqs, hx⟩)

theorem legible_update {u : EntityUpdate} (hcoordinates : ∀ x ∈ u.coordinates, Legible x)
    (hmeasures : ∀ x ∈ u.measures, Legible x) : (encode u).Legible := by
  refine EntityKind.legible_record _ ?_
  have hall : ∀ {l l' : List Float}, (∀ x ∈ l ++ l', Legible x) → (∀ x ∈ l, Legible x) ∧ ∀ x ∈ l', Legible x :=
    List.forall_mem_append.mp
  cases u with
  | point p => exact List.forall_mem_singleton.mpr (legible_map_point hcoordinates)
  | line s e =>
    obtain ⟨hs, he⟩ := hall hcoordinates
    simp only [List.forall_mem_cons]
    exact ⟨legible_map_point hs, legible_map_point he, nofun⟩
  | circle c r =>
    simp only [List.forall_mem_cons]
    exact ⟨legible_map_point hcoordinates, legible_map_float hmeasures, nofun⟩
  | arc c r s e =>
    obtain ⟨hrs, he⟩ := hall hmeasures
    obtain ⟨hr, hs⟩ := hall hrs
    simp only [List.forall_mem_cons]
    exact ⟨legible_map_point hcoordinates, legible_map_float hr, legible_map_float hs, legible_map_float he, nofun⟩
  | rectangle p w h =>
    obtain ⟨hw, hh⟩ := hall hmeasures
    simp only [List.forall_mem_cons]
    exact ⟨legible_map_point hcoordinates, legible_map_float hw, legible_map_float hh, nofun⟩
  | polyline ps closed =>
    simp only [List.forall_mem_cons]
    exact ⟨legible_map_points hcoordinates, legible_field fun b _ => legible_bool b, nofun⟩

/-! ### Constraints and requests -/

theorem legible_parameterValue {v : ParameterValue} (h : ∀ x ∈ v.numbers, Legible x) : (encode v).Legible := by
  cases v with
  | number x => exact legible_tagged (legible_float (h x List.mem_cons_self))
  | point p => exact legible_tagged (legible_point h)
  | vector v =>
    have hpoint : (encode (Point.mk v.x v.y)).Legible := legible_point h
    exact legible_tagged hpoint

theorem legible_parameters {ps : Parameters} (h : ∀ x ∈ ps.numbers, Legible x) : (encode ps).Legible :=
  legible_table ParameterKey.text fun v hv => legible_parameterValue fun x hx => h x (List.mem_flatMap.mpr ⟨v, hv, hx⟩)

theorem legible_ids (ids : List EntityId) : (encode ids).Legible := legible_list fun id _ => legible_string id.text

theorem legible_metadata (m : Metadata) : (encode m).Legible := by
  refine legible_record ?_
  simp only [List.forall_mem_cons]
  exact ⟨legible_some (legible_string m.created.text), legible_some (legible_string m.modified.text),
    legible_field fun s _ => legible_string s, nofun⟩

theorem legible_constraint {c : Constraint} (h : ∀ x ∈ c.parameters.numbers, Legible x) : (encode c).Legible := by
  refine legible_record ?_
  simp only [List.forall_mem_cons]
  exact ⟨legible_some (legible_string c.id.text), legible_some (legible_string c.kind.text),
    legible_some (legible_ids c.entities), legible_some (legible_parameters h), legible_some (legible_bool c.active),
    legible_some (legible_bool c.satisfied), legible_some (legible_int32 c.priority.value),
    legible_some (legible_metadata c.metadata), nofun⟩

theorem legible_request {r : Request} (h : ∀ x ∈ r.numbers, Legible x) : (encode r).Legible := by
  obtain ⟨hvalue, hpoint⟩ := List.forall_mem_append.mp h
  refine legible_record ?_
  simp only [List.forall_mem_cons]
  exact ⟨legible_some (legible_string r.kind.text), legible_some (legible_ids r.entities), legible_map_float hvalue,
    legible_map_point hpoint, legible_field fun p _ => legible_int32 p.value,
    legible_field fun s _ => legible_string s, nofun⟩

/-- Members that are taken away leave the others legible. -/
theorem Json.Value.Legible.without {v : Value} (h : v.Legible) (names : List String) : (v.without names).Legible := by
  cases h with
  | scalar h => exact .scalar h
  | array h => exact .array h
  | object hnames hvalues =>
    exact .object (fun m hm => hnames m (List.mem_of_mem_filter hm)) fun m hm => hvalues m (List.mem_of_mem_filter hm)

/-! ### Settings -/

def SolverSettings.numbers (s : SolverSettings) : List Float := [s.tolerance, s.damping]

def SuggestionSettings.numbers (s : SuggestionSettings) : List Float :=
  [s.parallelDegrees, s.perpendicularDegrees, s.concentricDistance, s.equalRadiusDelta]

/-- The settings that are floating point numbers. -/
def Settings.numbers (s : Settings) : List Float := s.solver.numbers ++ s.suggestions.numbers

theorem rereads_distanceMode (m : DistanceMode) : Rereads m := by
  show [DistanceMode.moveSecond, .symmetric].find? (·.tag == m.tag) = some m
  cases m <;> decide

theorem defaulted_encode {α : Type} [Codec α] (standard : α) {a : α} (h : Rereads a) :
    defaulted standard (some (encode a)) = some a := h

theorem rereads_solverSettings {s : SolverSettings} (h : Number.AllFinite s.numbers) : Rereads s := by
  obtain ⟨htolerance, hdamping⟩ : s.tolerance.isFinite = true ∧ s.damping.isFinite = true := by
    simpa [SolverSettings.numbers, Number.AllFinite] using h
  have htolerance := defaulted_encode ({} : SolverSettings).tolerance (rereads_float htolerance)
  have hiterations := defaulted_encode ({} : SolverSettings).maxIterations (rereads_uint32 s.maxIterations)
  have hdamping := defaulted_encode ({} : SolverSettings).damping (rereads_float hdamping)
  have hmode := defaulted_encode ({} : SolverSettings).distanceMode (rereads_distanceMode s.distanceMode)
  refine (bind_record (by simp) _).trans ?_
  simp only [List.map_cons, List.map_nil, Option.bind_eq_bind, Option.bind_some, htolerance, hiterations, hdamping,
    hmode]
  rfl

theorem rereads_suggestionSettings {s : SuggestionSettings} (h : Number.AllFinite s.numbers) : Rereads s := by
  have hthreshold (standard : Float) {x : Float} (hx : x.isFinite = true) :
      defaulted standard (some (encode x)) = some x := defaulted_encode standard (rereads_float hx)
  simp only [SuggestionSettings.numbers, Number.AllFinite, List.forall_mem_cons] at h
  obtain ⟨hparallel, hperpendicular, hconcentric, hradius, _⟩ := h
  refine (bind_record (by simp) _).trans ?_
  simp only [List.map_cons, List.map_nil, Option.bind_eq_bind, Option.bind_some, hthreshold _ hparallel,
    hthreshold _ hperpendicular, hthreshold _ hconcentric, hthreshold _ hradius]
  rfl

theorem rereads_settings {s : Settings} (h : Number.AllFinite s.numbers) : Rereads s := by
  obtain ⟨hsolver, hsuggestions⟩ := List.forall_mem_append.mp h
  have hsolver := defaulted_encode ({} : SolverSettings) (rereads_solverSettings hsolver)
  have hsuggestions := defaulted_encode ({} : SuggestionSettings) (rereads_suggestionSettings hsuggestions)
  refine (bind_record (by simp) _).trans ?_
  simp only [List.map_cons, List.map_nil, Option.bind_eq_bind, Option.bind_some, hsolver, hsuggestions]
  rfl

theorem legible_settings {s : Settings} (h : ∀ x ∈ s.numbers, Legible x) : (encode s).Legible := by
  obtain ⟨hsolver, hsuggestions⟩ := List.forall_mem_append.mp h
  have hsolver : (encode s.solver).Legible := by
    obtain ⟨htolerance, hdamping⟩ : Legible s.solver.tolerance ∧ Legible s.solver.damping := by
      simpa [SolverSettings.numbers] using hsolver
    refine legible_record ?_
    simp only [List.forall_mem_cons]
    exact ⟨legible_some (legible_float htolerance), legible_some (legible_uint32 s.solver.maxIterations),
      legible_some (legible_float hdamping), legible_some (legible_string s.solver.distanceMode.tag), nofun⟩
  have hsuggestions : (encode s.suggestions).Legible := by
    simp only [SuggestionSettings.numbers, List.forall_mem_cons] at hsuggestions
    obtain ⟨hparallel, hperpendicular, hconcentric, hradius, _⟩ := hsuggestions
    refine legible_record ?_
    simp only [List.forall_mem_cons]
    exact ⟨legible_some (legible_float hparallel), legible_some (legible_float hperpendicular),
      legible_some (legible_float hconcentric), legible_some (legible_float hradius), nofun⟩
  refine legible_record ?_
  simp only [List.forall_mem_cons]
  exact ⟨legible_some hsolver, legible_some hsuggestions, nofun⟩

/-! ### Round trips -/

/-- A constraint whose numbers and times are read from their texts. -/
structure Constraint.IsLegible (c : Constraint) : Prop where
  numbers : ∀ x ∈ c.parameters.numbers, Legible x
  created : c.metadata.created.IsRead
  modified : c.metadata.modified.IsRead

theorem allFinite_of_legible {l : List Float} (h : ∀ x ∈ l, Legible x) : Number.AllFinite l := fun x hx => (h x hx).1

/-- **Nothing is lost in a document.** Entities, updates, parameters, constraints, requests and settings are read from
their texts as they were written, if their numbers are finite and are read from theirs. A constraint is also read
without its parameters, its verdict or its priority: as one without parameters, not satisfied, of normal priority. -/
theorem documents_persist :
    (∀ e : Entity, (∀ x ∈ e.coordinates ++ e.measures, Legible x) → Persists e) ∧
    (∀ u : EntityUpdate, (∀ x ∈ u.coordinates ++ u.measures, Legible x) → Persists u) ∧
    (∀ ps : Parameters, (∀ x ∈ ps.numbers, Legible x) → Persists ps) ∧
    (∀ c : Constraint, c.IsLegible → Persists c ∧ ∀ names ⊆ Constraint.spare,
      (ofText? ((encode c).without names).render).bind decode? = some (c.abridged names)) ∧
    (∀ r : Request, (∀ x ∈ r.numbers, Legible x) → Persists r) ∧
    (∀ s : Settings, (∀ x ∈ s.numbers, Legible x) → Persists s) := by
  refine ⟨fun e h => ?_, fun u h => ?_, fun ps h => ?_, fun c h => ⟨?_, fun names hnames => ?_⟩, fun r h => ?_,
    fun s h => ?_⟩
  · obtain ⟨hcoordinates, hmeasures⟩ := List.forall_mem_append.mp h
    exact persists (rereads_entity ⟨allFinite_of_legible hcoordinates, allFinite_of_legible hmeasures⟩)
      (legible_entity hcoordinates hmeasures)
  · obtain ⟨hcoordinates, hmeasures⟩ := List.forall_mem_append.mp h
    exact persists (rereads_update ⟨allFinite_of_legible hcoordinates, allFinite_of_legible hmeasures⟩)
      (legible_update hcoordinates hmeasures)
  · exact persists (rereads_parameters (allFinite_of_legible h)) (legible_parameters h)
  · exact persists (rereads_constraint (allFinite_of_legible h.numbers) h.created h.modified)
      (legible_constraint h.numbers)
  · rw [ofText?_render ((legible_constraint h.numbers).without names)]
    exact decode?_without hnames (allFinite_of_legible h.numbers) h.created h.modified
  · exact persists (rereads_request (allFinite_of_legible h)) (legible_request h)
  · exact persists (rereads_settings (allFinite_of_legible h)) (legible_settings h)

/-- An arc, an update of two of its fields, and an angle between two lines with its request and settings. -/
theorem documents_persist_arc :
    let arc : Entity := .arc ⟨-0.1, 1e300⟩ 2.5 0.0 3.0
    let update : EntityUpdate := .arc none (some 1e-7) none (some 3.0)
    let parameters : Parameters := Table.ofList [(.angle, .number 0.5), (.offset, .vector ⟨1.0, -0.0⟩)]
    let angle : Constraint :=
      ⟨⟨⟨1⟩⟩, .angle, [⟨⟨2⟩⟩, ⟨⟨3⟩⟩], parameters, true, true, .high, ⟨⟨1000, 5⟩, ⟨2000, 0⟩, some "\"a\"\n"⟩⟩
    let request : Request := { kind := .angle, entities := [⟨⟨2⟩⟩, ⟨⟨3⟩⟩], value := some 0.5, priority := some .low }
    let settings : Settings := { solver := { damping := 0.25 } }
    Persists arc ∧ Persists update ∧ Persists parameters ∧ Persists angle ∧ Persists request ∧ Persists settings ∧
      (ofText? ((encode angle).without ["parameters", "priority"]).render).bind decode? =
        some { angle with parameters := .empty, priority := .normal } := by
  intro arc update parameters angle request settings
  obtain ⟨hentity, hupdate, hparameters, hconstraint, hrequest, hsettings⟩ := documents_persist
  have hangle : angle.IsLegible := ⟨by decide +kernel, by decide +kernel, by decide +kernel⟩
  obtain ⟨hwhole, habridged⟩ := hconstraint angle hangle
  exact ⟨hentity arc (by decide +kernel), hupdate update (by decide +kernel),
    hparameters parameters (by decide +kernel), hwhole, hrequest request (by decide +kernel),
    hsettings settings (by decide +kernel), habridged _ (by decide)⟩

end Drafting
