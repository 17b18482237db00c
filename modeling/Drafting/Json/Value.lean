import Drafting.Number.Hexadecimal
import Drafting.Number.Text

/-! JSON values and their text.

A number is an integer if it is written as one and fits in 64 bits, and a
floating point number otherwise. A string literal denotes a text, except that an
escape may name half of a surrogate pair on its own; such a literal is
grammatical and denotes none. -/
namespace Drafting.Json

/-- What a string literal denotes, if it denotes a text. -/
abbrev Literal := Option String

/-- A value without parts. -/
inductive Scalar where
  | null
  | bool (b : Bool)
  | integer (n : Int)
  | float (x : Float)
  | string (s : Literal)
  deriving DecidableEq

/-- A JSON value. The members of an object are kept as written, repeated names included. -/
inductive Value where
  | scalar (s : Scalar)
  | array (items : List Value)
  | object (members : List (Literal × Value))

instance : Inhabited Value := ⟨.scalar .null⟩

namespace Value

@[match_pattern] abbrev null : Value := .scalar .null
@[match_pattern] abbrev bool (b : Bool) : Value := .scalar (.bool b)
@[match_pattern] abbrev integer (n : Int) : Value := .scalar (.integer n)
@[match_pattern] abbrev float (x : Float) : Value := .scalar (.float x)
@[match_pattern] abbrev string (s : String) : Value := .scalar (.string (some s))

/-- An object of named members. -/
def ofMembers (members : List (String × Value)) : Value :=
  .object (members.map fun m => (some m.1, m.2))

end Value

/-! ### Writing -/

/-- A character inside a string literal. -/
def escaped (c : Char) : String :=
  if c = '"' then "\\\""
  else if c = '\\' then "\\\\"
  else if c = '\n' then "\\n"
  else if c = '\r' then "\\r"
  else if c = '\t' then "\\t"
  else if c.toNat = 8 then "\\b"
  else if c.toNat = 12 then "\\f"
  else if c.toNat < 32 then "\\u" ++ String.ofList (Number.hexDigits 4 c.toNat)
  else c.toString

/-- A string literal. -/
def quoted (s : String) : String := "\"" ++ String.join (s.toList.map escaped) ++ "\""

/-- The text of a scalar. What is no finite number is written as `null`, and a literal without
text as the empty one. -/
def Scalar.render : Scalar → String
  | .null => "null"
  | .bool b => if b then "true" else "false"
  | .integer n => toString n
  | .float x => if x.isFinite then Number.literal.text x else "null"
  | .string s => quoted (s.getD "")

mutual

/-- The text of a value, without blanks. -/
def Value.render : Value → String
  | .scalar s => s.render
  | .array items => "[" ++ ",".intercalate (renderItems items) ++ "]"
  | .object members => "\x7b" ++ ",".intercalate (renderMembers members) ++ "\x7d"

private def renderItems : List Value → List String
  | [] => []
  | v :: rest => v.render :: renderItems rest

private def renderMembers : List (Literal × Value) → List String
  | [] => []
  | (k, v) :: rest => (quoted (k.getD "") ++ ":" ++ v.render) :: renderMembers rest

end

private theorem renderItems_eq (items : List Value) : renderItems items = items.map Value.render := by
  induction items with
  | nil => rfl
  | cons v rest ih => rw [renderItems, ih, List.map_cons]

private theorem renderMembers_eq (members : List (Literal × Value)) :
    renderMembers members = members.map fun m => quoted (m.1.getD "") ++ ":" ++ m.2.render := by
  induction members with
  | nil => rfl
  | cons m rest ih => rw [renderMembers, ih, List.map_cons]

/-- An array is its items between brackets. -/
theorem Value.render_array (items : List Value) :
    (Value.array items).render = "[" ++ ",".intercalate (items.map render) ++ "]" := by
  rw [render, renderItems_eq]

/-- An object is its members between braces. -/
theorem Value.render_object (members : List (Literal × Value)) :
    (Value.object members).render =
      "\x7b" ++ ",".intercalate (members.map fun m => quoted (m.1.getD "") ++ ":" ++ m.2.render) ++ "\x7d" := by
  rw [render, renderMembers_eq]

end Drafting.Json
