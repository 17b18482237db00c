import Drafting.Document.Geometry
import Drafting.Proofs.Entity.Finite
import Drafting.Proofs.Identifier.Text
import Drafting.Proofs.Json.Codec

/-! Reading documents about geometry.

Identifiers and names are read as they were written. A point is, if its coordinates
are finite, and so an update is read again if all its numbers are finite: its tag
tells the kind and with it the names of the fields, and a field that was left out
reads as one without a new value. -/
namespace Drafting

open Json

/-! ### Names -/

theorem rereads_entityId (id : EntityId) : Rereads id := by
  show ((some id.uuid.text).bind Uuid.ofText?).map EntityId.mk = some id
  rw [Option.bind_some, Uuid.ofText?_text]
  rfl

theorem rereads_constraintId (id : ConstraintId) : Rereads id := by
  show ((some id.uuid.text).bind Uuid.ofText?).map ConstraintId.mk = some id
  rw [Option.bind_some, Uuid.ofText?_text]
  rfl

theorem EntityKind.find?_tag (k : EntityKind) : all.find? (·.tag == k.tag) = some k := by
  cases k <;> decide

theorem rereads_entityKind (k : EntityKind) : Rereads k := k.find?_tag

theorem rereads_constraintKind (k : ConstraintKind) : Rereads k := by
  show ConstraintKind.all.find? (·.text == k.text) = some k
  cases k <;> decide

theorem rereads_parameterKey (key : ParameterKey) : Rereads key := by
  show ParameterKey.all.find? (·.text == key.text) = some key
  cases key <;> decide

/-! ### Entities and updates -/

theorem rereads_point {p : Point} (h : Number.AllFinite p.coordinates) : Rereads p := by
  have hx : Rereads p.x := rereads_float (h p.x List.mem_cons_self)
  have hy : Rereads p.y := rereads_float (h p.y (List.mem_cons_of_mem _ List.mem_cons_self))
  show ((decode? (encode p.x)).bind fun x => (decode? (encode p.y)).bind fun y => some (Point.mk x y)) = _
  rw [hx, hy]
  rfl

/-- The tag tells which fields to look for. -/
theorem EntityKind.ofRecord?_record (k : EntityKind) {values : List (Option Value)}
    (hlength : values.length = k.fields.length) : ofRecord? (k.record values) = some (k, values) := by
  have hnames : (k.fields.zip values).map Prod.fst = k.fields := List.map_fst_zip (by omega)
  have hvalues : (k.fields.zip values).map Prod.snd = values := List.map_snd_zip (by omega)
  have hnodup : k.fields.Nodup := by cases k <;> decide
  have hfields := fields?_record (k.fields.zip values) (by rwa [hnames])
  rw [hnames, hvalues] at hfields
  show (all.find? (·.tag == k.tag)).bind
    (fun k' => ((Value.record (k.fields.zip values)).fields? k'.fields).bind fun found => some (k', found)) = _
  rw [k.find?_tag, Option.bind_some, hfields]
  rfl

/-- **An entity of finite numbers is read as it was written.** -/
theorem rereads_entity {e : Entity} (h : e.IsFinite) : Rereads e := by
  obtain ⟨hcoordinates, hmeasures⟩ := h
  have hall : ∀ {l l' : List Float}, Number.AllFinite (l ++ l') → Number.AllFinite l ∧ Number.AllFinite l' :=
    List.forall_mem_append.mp
  have hmeasure {x : Float} (hx : x ∈ e.measures) : required (some (encode x)) = some x :=
    required_encode (rereads_float (hmeasures x hx))
  unfold Rereads
  cases e with
  | point p =>
    show (EntityKind.ofRecord? (EntityKind.point.record [some (encode p)])).bind _ = _
    rw [EntityKind.ofRecord?_record _ rfl]
    simp [required_encode (rereads_point hcoordinates)]
  | line s e =>
    obtain ⟨hs, he⟩ := hall hcoordinates
    show (EntityKind.ofRecord? (EntityKind.line.record [some (encode s), some (encode e)])).bind _ = _
    rw [EntityKind.ofRecord?_record _ rfl]
    simp [required_encode (rereads_point hs), required_encode (rereads_point he)]
  | circle c r =>
    have hr := hmeasure (x := r) (by simp [Entity.measures])
    show (EntityKind.ofRecord? (EntityKind.circle.record [some (encode c), some (encode r)])).bind _ = _
    rw [EntityKind.ofRecord?_record _ rfl]
    simp [required_encode (rereads_point hcoordinates), hr]
  | arc c r s e =>
    have hr := hmeasure (x := r) (by simp [Entity.measures])
    have hs := hmeasure (x := s) (by simp [Entity.measures])
    have he := hmeasure (x := e) (by simp [Entity.measures])
    show (EntityKind.ofRecord? (EntityKind.arc.record [some (encode c), some (encode r), some (encode s),
      some (encode e)])).bind _ = _
    rw [EntityKind.ofRecord?_record _ rfl]
    simp [required_encode (rereads_point hcoordinates), hr, hs, he]
  | rectangle p w h =>
    have hw := hmeasure (x := w) (by simp [Entity.measures])
    have hh := hmeasure (x := h) (by simp [Entity.measures])
    show (EntityKind.ofRecord? (EntityKind.rectangle.record [some (encode p), some (encode w), some (encode h)])).bind _ = _
    rw [EntityKind.ofRecord?_record _ rfl]
    simp [required_encode (rereads_point hcoordinates), hw, hh]
  | polyline ps closed =>
    have hps : Rereads ps := rereads_list fun p hp => rereads_point fun x hx =>
      hcoordinates x (List.mem_flatMap.mpr ⟨p, hp, hx⟩)
    show (EntityKind.ofRecord? (EntityKind.polyline.record [some (encode ps), some (encode closed)])).bind _ = _
    rw [EntityKind.ofRecord?_record _ rfl]
    simp [required_encode hps, required_encode (rereads_bool closed)]

/-- A new value that may be left out is read again if its numbers are finite. -/
theorem omittable_point {p : Option Point} (h : Number.AllFinite (p.toList.flatMap Point.coordinates)) :
    omittable (p.map encode) = some p := by
  refine omittable_encode rfl fun q hq => rereads_point fun x hx => h x ?_
  exact List.mem_flatMap.mpr ⟨q, Option.mem_toList.mpr hq, hx⟩

theorem omittable_float {x : Option Float} (h : Number.AllFinite x.toList) : omittable (x.map encode) = some x :=
  omittable_encode rfl fun y hy => rereads_float (h y (by simpa using hy))

theorem omittable_points {ps : Option (List Point)}
    (h : Number.AllFinite (ps.toList.flatMap fun ps => ps.flatMap Point.coordinates)) :
    omittable (ps.map encode) = some ps := by
  refine omittable_encode rfl fun qs hqs => rereads_list fun q hq => rereads_point fun x hx => h x ?_
  exact List.mem_flatMap.mpr ⟨qs, Option.mem_toList.mpr hqs, List.mem_flatMap.mpr ⟨q, hq, hx⟩⟩

theorem omittable_bool (b : Option Bool) : omittable (b.map encode) = some b :=
  omittable_encode rfl fun _ _ => rereads_bool _

/-- **An update of finite numbers is read as it was written.** -/
theorem rereads_update {u : EntityUpdate} (h : u.IsFinite) : Rereads u := by
  obtain ⟨hcoordinates, hmeasures⟩ := h
  have hall : ∀ {l l' : List Float}, Number.AllFinite (l ++ l') → Number.AllFinite l ∧ Number.AllFinite l' :=
    List.forall_mem_append.mp
  unfold Rereads
  cases u with
  | point p =>
    show (EntityKind.ofRecord? (EntityKind.point.record [p.map encode])).bind _ = _
    rw [EntityKind.ofRecord?_record _ rfl]
    simp [omittable_point hcoordinates]
  | line s e =>
    obtain ⟨hs, he⟩ := hall hcoordinates
    show (EntityKind.ofRecord? (EntityKind.line.record [s.map encode, e.map encode])).bind _ = _
    rw [EntityKind.ofRecord?_record _ rfl]
    simp [omittable_point hs, omittable_point he]
  | circle c r =>
    show (EntityKind.ofRecord? (EntityKind.circle.record [c.map encode, r.map encode])).bind _ = _
    rw [EntityKind.ofRecord?_record _ rfl]
    simp [omittable_point hcoordinates, omittable_float hmeasures]
  | arc c r s e =>
    obtain ⟨hrs, he⟩ := hall hmeasures
    obtain ⟨hr, hs⟩ := hall hrs
    show (EntityKind.ofRecord? (EntityKind.arc.record [c.map encode, r.map encode, s.map encode, e.map encode])).bind _ = _
    rw [EntityKind.ofRecord?_record _ rfl]
    simp [omittable_point hcoordinates, omittable_float hr, omittable_float hs, omittable_float he]
  | rectangle p w h =>
    obtain ⟨hw, hh⟩ := hall hmeasures
    show (EntityKind.ofRecord? (EntityKind.rectangle.record [p.map encode, w.map encode, h.map encode])).bind _ = _
    rw [EntityKind.ofRecord?_record _ rfl]
    simp [omittable_point hcoordinates, omittable_float hw, omittable_float hh]
  | polyline ps closed =>
    show (EntityKind.ofRecord? (EntityKind.polyline.record [ps.map encode, closed.map encode])).bind _ = _
    rw [EntityKind.ofRecord?_record _ rfl]
    simp [omittable_points hcoordinates, omittable_bool]

/-- A table by entity is read again if its values are. -/
theorem rereads_byEntity {ν : Type} [Codec ν] {t : Table EntityId ν} (h : ∀ v ∈ t.values, Rereads v) : Rereads t :=
  rereads_table (fun id => by rw [EntityId.text, Uuid.ofText?_text]; rfl) h

end Drafting
