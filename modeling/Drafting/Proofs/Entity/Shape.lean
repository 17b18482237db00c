import Drafting.Entity.Basic

/-! What solving leaves alone.

A correction moves an entity, redraws a line (`Entity.Moved`), or gives a circle or
an arc another radius (`Entity.Reworked`). None of that touches the entity's
`Shape`: its kind, and what is neither a place nor a radius. A change of a snapshot
is `Confined` to some entities if it keeps the row of keys and every shape, and
changes no other entity at all. -/
namespace Drafting

/-- What no correction changes about an entity. -/
inductive Shape where
  | point
  | line
  | circle
  | arc (startAngle endAngle : Float)
  | rectangle (width height : Float)
  | polyline (vertices : Nat) (closed : Bool)
  deriving DecidableEq

def Shape.kind : Shape → EntityKind
  | .point => .point
  | .line => .line
  | .circle => .circle
  | .arc .. => .arc
  | .rectangle .. => .rectangle
  | .polyline .. => .polyline

namespace Entity

def shape : Entity → Shape
  | .point _ => .point
  | .line _ _ => .line
  | .circle _ _ => .circle
  | .arc _ _ startAngle endAngle => .arc startAngle endAngle
  | .rectangle _ width height => .rectangle width height
  | .polyline points closed => .polyline points.length closed

theorem kind_shape (e : Entity) : e.shape.kind = e.kind := by
  cases e <;> rfl

@[simp] theorem shape_translated (v : Vec) (e : Entity) : (e.translated v).shape = e.shape := by
  cases e <;> simp [translated, shape]

@[simp] theorem shape_withRadius (r : Float) (e : Entity) : (e.withRadius r).shape = e.shape := by
  cases e <;> rfl

/-- The radius of a circle or an arc. -/
def radius? (e : Entity) : Option Float := e.circular?.map Prod.snd

@[simp] theorem radius?_translated (v : Vec) (e : Entity) : (e.translated v).radius? = e.radius? := by
  cases e <;> rfl

/-- An entity elsewhere, or a line drawn anew. -/
inductive Moved : Entity → Entity → Prop where
  | translated (e : Entity) (v : Vec) : Moved e (e.translated v)
  | redrawn (s t : Segment) : Moved (.ofSegment s) (.ofSegment t)

theorem Moved.radius?_eq {e e' : Entity} (h : e.Moved e') : e'.radius? = e.radius? := by
  cases h with
  | translated => exact radius?_translated _ e
  | redrawn => rfl

/-- What a correction may make of an entity. -/
inductive Reworked : Entity → Entity → Prop where
  | translated (e : Entity) (v : Vec) : Reworked e (e.translated v)
  | redrawn (s t : Segment) : Reworked (.ofSegment s) (.ofSegment t)
  | resized (e : Entity) (radius : Float) : Reworked e (e.withRadius radius)

theorem Moved.reworked {e e' : Entity} (h : e.Moved e') : e.Reworked e' := by
  cases h with
  | translated => exact .translated e _
  | redrawn => exact .redrawn _ _

theorem Reworked.shape_eq {e e' : Entity} (h : e.Reworked e') : e'.shape = e.shape := by
  cases h with
  | translated => exact shape_translated _ e
  | redrawn => rfl
  | resized => exact shape_withRadius _ e

end Entity

namespace Snapshot

/-- The kind of an entity, if there is one. -/
def kind? (snapshot : Snapshot) (id : EntityId) : Option EntityKind := (snapshot.get? id).map Entity.kind

/-- The radius of an entity, if it is there and has one. -/
def radius? (snapshot : Snapshot) (id : EntityId) : Option Float := (snapshot.get? id).bind Entity.radius?

/-- From `old` to `new` only the listed entities change, and those keep their shape. -/
structure Confined (ids : List EntityId) (old new : Snapshot) : Prop where
  keys : new.keys = old.keys
  shape : ∀ id, (new.get? id).map Entity.shape = (old.get? id).map Entity.shape
  frame : ∀ id, id ∉ ids → new.get? id = old.get? id

namespace Confined

variable {ids : List EntityId} {s t u : Snapshot}

theorem refl (ids : List EntityId) (s : Snapshot) : Confined ids s s := ⟨rfl, fun _ => rfl, fun _ _ => rfl⟩

theorem trans (h : Confined ids s t) (h' : Confined ids t u) : Confined ids s u :=
  ⟨h'.keys.trans h.keys, fun id => (h'.shape id).trans (h.shape id),
    fun id hid => (h'.frame id hid).trans (h.frame id hid)⟩

theorem mono {ids' : List EntityId} (h : Confined ids s t) (hsub : ∀ id ∈ ids, id ∈ ids') : Confined ids' s t :=
  ⟨h.keys, h.shape, fun id hid => h.frame id fun hm => hid (hsub id hm)⟩

theorem mem_iff (h : Confined ids s t) (id : EntityId) : id ∈ t ↔ id ∈ s := by
  show id ∈ t.keys ↔ id ∈ s.keys
  rw [h.keys]

/-- Entities of the list may be written over if the shapes stay. -/
theorem insertAll {l : List (EntityId × Entity)} (h : Confined ids s t)
    (hl : ∀ e ∈ l, e.1 ∈ ids ∧ (s.get? e.1).map Entity.shape = some e.2.shape) :
    Confined ids s (t.insertAll l) := by
  have hmem : ∀ e ∈ l, e.1 ∈ t := by
    intro e he
    rw [h.mem_iff, Table.mem_iff, ← Option.isSome_map, (hl e he).2]
    rfl
  refine ⟨(Table.keys_insertAll_of_mem hmem).trans h.keys, fun id => ?_, fun id hid => ?_⟩
  · rcases Table.get?_insertAll_cases t l id with hsame | ⟨e, he, hnew⟩
    · rw [hsame, h.shape]
    · rw [hnew, (hl _ he).2, Option.map_some]
  · have hnot : id ∉ l.map Prod.fst := fun hm =>
      have ⟨e, he, heq⟩ := List.mem_map.mp hm
      hid (heq ▸ (hl e he).1)
    rw [Table.get?_insertAll_of_not_mem t hnot, h.frame id hid]

/-- The kinds stay, too. -/
theorem kind?_eq (h : Confined ids s t) (id : EntityId) : t.kind? id = s.kind? id := by
  have hshape := congrArg (Option.map Shape.kind) (h.shape id)
  simpa only [kind?, Option.map_map, Function.comp_def, Entity.kind_shape] using hshape

/-- The shapes of a snapshot are kept as a whole. -/
theorem map_shape_eq (h : Confined ids s t) : t.map Entity.shape = s.map Entity.shape := by
  refine Table.ext_get? ?_ fun id => ?_
  · rw [Table.keys_map, Table.keys_map, h.keys]
  · rw [Table.get?_map, Table.get?_map, h.shape]

end Confined

end Snapshot

end Drafting
