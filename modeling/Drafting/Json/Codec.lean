import Drafting.Json.Reader
import Drafting.Table

/-! Values of the domain as JSON.

A `Codec` writes a type as JSON and reads it back. Records and tagged unions have
one shape each, fixed here: a record is an object of its fields, with absent ones
left out, and reads also from an array of them in declared order; a choice
without data is its name, a choice with data an object of one member. Reading
skips members that no field is named for, and refuses a field given twice. -/
namespace Drafting.Json

/-- A type with a JSON form. -/
class Codec (α : Type) where
  encode : α → Value
  decode? : Value → Option α

export Codec (encode decode?)

/-! ### Basic types -/

instance : Codec Bool where
  encode := .bool
  decode?
    | .bool b => some b
    | _ => none

/-- A finite number; an integer is one too. What is not finite is written as `null` and never read. -/
instance : Codec Float where
  encode x := if x.isFinite then .float x else .null
  decode?
    | .float x => if x.isFinite then some x else none
    | .integer n => some (.ofInt n)
    | _ => none

instance : Codec String where
  encode := .string
  decode?
    | .scalar (.string s) => s
    | _ => none

/-- A count of at most 64 bits. -/
instance : Codec Nat where
  encode n := .integer n
  decode?
    | .integer n => if 0 ≤ n ∧ n < UInt64.size then some n.toNat else none
    | _ => none

instance : Codec UInt32 where
  encode n := .integer n.toNat
  decode?
    | .integer n => if 0 ≤ n ∧ n < UInt32.size then some (.ofNat n.toNat) else none
    | _ => none

instance : Codec Int32 where
  encode n := .integer n.toInt
  decode?
    | .integer n => if Int32.minValue.toInt ≤ n ∧ n ≤ Int32.maxValue.toInt then some (.ofInt n) else none
    | _ => none

instance {α : Type} [Codec α] : Codec (List α) where
  encode xs := .array (xs.map encode)
  decode?
    | .array items => items.mapM decode?
    | _ => none

/-! ### Records -/

/-- A record from its fields; `none` is left out. -/
def Value.record (fields : List (String × Option Value)) : Value :=
  .ofMembers (fields.filterMap fun f => f.2.map (f.1, ·))

/-- What a list of members gives for a name, unless it gives it twice. -/
def member? (name : String) (members : List (String × Value)) : Option (Option Value) :=
  match members.filter (·.1 == name) with
  | [] => some none
  | [m] => some (some m.2)
  | _ => none

/-- The value of each named field of a record, `none` where it is not given. -/
def Value.fields? (names : List String) : Value → Option (List (Option Value))
  | .object members => do
    let members ← members.mapM fun m => m.1.map (·, m.2)
    names.mapM fun name => member? name members
  | .array items =>
    if items.length ≤ names.length then
      some (items.map some ++ List.replicate (names.length - items.length) none)
    else none
  | _ => none

/-- A field that must be there. -/
def required {α : Type} [Codec α] (field : Option Value) : Option α := field.bind decode?

/-- A field that stands for `standard` when it is not there. -/
def defaulted {α : Type} [Codec α] (standard : α) : Option Value → Option α
  | none => some standard
  | some v => decode? v

/-- A field that may be absent or `null`. -/
def omittable {α : Type} [Codec α] : Option Value → Option (Option α)
  | none | some .null => some none
  | some v => (decode? v).map some

/-! ### Choices -/

/-- A choice with data. -/
def Value.tagged (name : String) (data : Value) : Value := .ofMembers [(name, data)]

/-- The name of a choice, and its data if there are any. -/
def Value.choice? : Value → Option (String × Option Value)
  | .scalar (.string s) => s.map (·, none)
  | .object [(k, v)] => k.map (·, some v)
  | _ => none

/-- Reads a choice without data: its name, or the name with `null`. -/
def oneOf? {α : Type} (all : List α) (name : α → String) (v : Value) : Option α := do
  let (chosen, data) ← v.choice?
  match data with
  | none | some .null => all.find? (name · == chosen)
  | _ => none

/-! ### Tables -/

/-- A table as an object, its keys as text. -/
def encodeTable {κ ν : Type} [Codec ν] (text : κ → String) (t : Table κ ν) : Value :=
  .ofMembers (t.entries.map fun e => (text e.1, encode e.2))

/-- Reads a table; of two values for one key the later stays. -/
def decodeTable? {κ ν : Type} [DecidableEq κ] [Codec ν] (ofText? : String → Option κ) :
    Value → Option (Table κ ν)
  | .object members => do
    let entries ← members.mapM fun m => do
      let name ← m.1
      return (← ofText? name, ← decode? m.2)
    return Table.ofList entries
  | _ => none

end Drafting.Json
