import Drafting.Json.Token

/-! Reading JSON.

The reader is a machine that takes one token at a time. Its stack holds the
arrays and objects that are still open, each with the parts it already has, and
`Mode` says what may come next. A text is JSON if the machine ends with an empty
stack behind one value; how deep the text nests does not matter. -/
namespace Drafting.Json

/-- An array or object that is still open, without the part being read. Parts are in reverse. -/
inductive Frame where
  | array (items : List Value)
  | object (members : List (Literal × Value)) (name : Literal)

/-- What the reader waits for. -/
inductive Mode where
  /-- A value. -/
  | value
  /-- The first item of an array, or its end. -/
  | firstItem
  /-- The first name of an object, or its end. -/
  | firstName
  /-- A name, behind these members of an object (in reverse). -/
  | name (members : List (Literal × Value))
  /-- The colon behind a name. -/
  | colon (members : List (Literal × Value)) (name : Literal)
  /-- What may follow a complete value. -/
  | after (v : Value)

/-- A reader between two tokens. -/
structure Reader where
  stack : List Frame
  mode : Mode

namespace Reader

/-- Before the first token. -/
def initial : Reader := ⟨[], .value⟩

/-- Starts a value. -/
def openValue (stack : List Frame) : Token → Option Reader
  | .scalar s => some ⟨stack, .after (.scalar s)⟩
  | .openArray => some ⟨stack, .firstItem⟩
  | .openObject => some ⟨stack, .firstName⟩
  | _ => none

/-- Goes on behind a complete value: the innermost open array or object decides. -/
def closeValue (v : Value) : List Frame → Token → Option Reader
  | .array items :: stack, .comma => some ⟨.array (v :: items) :: stack, .value⟩
  | .array items :: stack, .closeArray => some ⟨stack, .after (.array (v :: items).reverse)⟩
  | .object members k :: stack, .comma => some ⟨stack, .name ((k, v) :: members)⟩
  | .object members k :: stack, .closeObject => some ⟨stack, .after (.object ((k, v) :: members).reverse)⟩
  | _, _ => none

/-- The reader after one more token. -/
def step (r : Reader) (t : Token) : Option Reader :=
  match r.mode, t with
  | .value, t => openValue r.stack t
  | .firstItem, .closeArray => some ⟨r.stack, .after (.array [])⟩
  | .firstItem, t => openValue (.array [] :: r.stack) t
  | .firstName, .closeObject => some ⟨r.stack, .after (.object [])⟩
  | .firstName, .scalar (.string k) => some ⟨r.stack, .colon [] k⟩
  | .name members, .scalar (.string k) => some ⟨r.stack, .colon members k⟩
  | .colon members k, .colon => some ⟨.object members k :: r.stack, .value⟩
  | .after v, t => closeValue v r.stack t
  | _, _ => none

/-- The value, if the reader is behind one and nothing is open. -/
def result? (r : Reader) : Option Value :=
  match r.stack, r.mode with
  | [], .after v => some v
  | _, _ => none

end Reader

/-- Reads the tokens of one value. -/
def ofTokens? (ts : List Token) : Option Value :=
  (ts.foldlM Reader.step .initial).bind Reader.result?

/-- Reads a JSON text. -/
def ofText? (s : String) : Option Value := (tokens? s.toList).bind ofTokens?

end Drafting.Json
