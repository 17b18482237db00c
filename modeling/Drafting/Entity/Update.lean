import Drafting.Entity.Basic

/-! Partial updates of entities.

An update names the fields of one kind of entity that get a new value. `diff`
finds the update between two entities of one kind, with exactly the fields that
do not compare equal, and `apply` carries an update out. An update for another
kind of entity does nothing. -/
namespace Drafting

/-- New values for some fields of an entity of one kind. -/
inductive EntityUpdate where
  | point (position : Option Point)
  | line (start stop : Option Point)
  | circle (center : Option Point) (radius : Option Float)
  | arc (center : Option Point) (radius startAngle endAngle : Option Float)
  | rectangle (position : Option Point) (width height : Option Float)
  | polyline (points : Option (List Point)) (closed : Option Bool)
  deriving DecidableEq

/-- The kind of the entities that an update is for. -/
def EntityUpdate.kind : EntityUpdate → EntityKind
  | .point .. => .point
  | .line .. => .line
  | .circle .. => .circle
  | .arc .. => .arc
  | .rectangle .. => .rectangle
  | .polyline .. => .polyline

/-- Updates by entity. -/
abbrev Batch := Table EntityId EntityUpdate

/-- Whether no field gets a new value. -/
def EntityUpdate.isEmpty : EntityUpdate → Bool
  | .point p => p.isNone
  | .line s e => s.isNone && e.isNone
  | .circle c r => c.isNone && r.isNone
  | .arc c r s e => c.isNone && r.isNone && s.isNone && e.isNone
  | .rectangle p w h => p.isNone && w.isNone && h.isNone
  | .polyline ps c => ps.isNone && c.isNone

namespace Entity

/-- The new value, unless it agrees with the old one. -/
def changed {α : Type} (agrees : α → α → Bool) (old new : α) : Option α :=
  if agrees old new then none else some new

private def floats : Float → Float → Bool := (· == ·)

/-- The fields in which `new` does not agree with an entity of the same kind. -/
def difference? : Entity → Entity → Option EntityUpdate
  | .point p, .point p' => some (.point (changed Point.agrees p p'))
  | .line s e, .line s' e' => some (.line (changed Point.agrees s s') (changed Point.agrees e e'))
  | .circle c r, .circle c' r' => some (.circle (changed Point.agrees c c') (changed floats r r'))
  | .arc c r s e, .arc c' r' s' e' =>
    some (.arc (changed Point.agrees c c') (changed floats r r') (changed floats s s') (changed floats e e'))
  | .rectangle p w h, .rectangle p' w' h' =>
    some (.rectangle (changed Point.agrees p p') (changed floats w w') (changed floats h h'))
  | .polyline ps c, .polyline ps' c' =>
    some (.polyline (changed Point.allAgree ps ps') (changed (· == ·) c c'))
  | _, _ => none

/-- The update that turns one entity into another; absent if nothing changed, or everything: an
update cannot change the kind. -/
def diff (old new : Entity) : Option EntityUpdate :=
  (old.difference? new).filter fun u => !u.isEmpty

/-- The entity after an update. -/
def apply : Entity → EntityUpdate → Entity
  | .point p, .point p' => .point (p'.getD p)
  | .line s e, .line s' e' => .line (s'.getD s) (e'.getD e)
  | .circle c r, .circle c' r' => .circle (c'.getD c) (r'.getD r)
  | .arc c r s e, .arc c' r' s' e' => .arc (c'.getD c) (r'.getD r) (s'.getD s) (e'.getD e)
  | .rectangle p w h, .rectangle p' w' h' => .rectangle (p'.getD p) (w'.getD w) (h'.getD h)
  | .polyline ps c, .polyline ps' c' => .polyline (ps'.getD ps) (c'.getD c)
  | e, _ => e

@[simp] theorem kind_apply (e : Entity) (u : EntityUpdate) : (e.apply u).kind = e.kind := by
  cases e <;> cases u <;> rfl

end Entity

/-- The updates that lead from one snapshot to another, for the entities that are in both. -/
def Snapshot.changes (old new : Snapshot) : Batch :=
  old.filterMap fun id e => (new.get? id).bind e.diff

/-- A snapshot after a batch of updates; updates of unknown entities are passed over. -/
def Snapshot.merge (s : Snapshot) (batch : Batch) : Snapshot where
  entries := s.entries.map fun e => (e.1, ((batch.get? e.1).map e.2.apply).getD e.2)
  nodup := by simpa [List.map_map, Function.comp_def] using s.nodup

namespace Snapshot

theorem get?_changes (old new : Snapshot) (id : EntityId) :
    (old.changes new).get? id = (old.get? id).bind fun e => (new.get? id).bind e.diff := by
  rw [changes, Table.get?_filterMap]

/-- Updates neither add entities nor remove any. -/
@[simp] theorem keys_merge (s : Snapshot) (batch : Batch) : (s.merge batch).keys = s.keys := by
  simp [Table.keys, merge, Function.comp_def]

theorem get?_merge (s : Snapshot) (batch : Batch) (id : EntityId) :
    (s.merge batch).get? id = (s.get? id).map fun e => ((batch.get? id).map e.apply).getD e := by
  show Table.find? id (s.entries.map _) = (Table.find? id s.entries).map _
  generalize s.entries = l
  induction l with
  | nil => rfl
  | cons e rest ih =>
    by_cases h : e.1 = id
    · simp [Table.find?, h]
    · simp [Table.find?, h, ih]

end Snapshot

end Drafting
