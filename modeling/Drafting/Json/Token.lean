import Drafting.Json.Value

/-! The tokens of a JSON text.

`tokens?` cuts a text into punctuation and scalars and fails where no token
starts. It never looks at how tokens may follow each other: adjacent scalars, as
in `01`, are two tokens here and refused by the reader of token lists. -/
namespace Drafting.Json

/-- A piece of a JSON text. -/
inductive Token where
  | openArray
  | closeArray
  | openObject
  | closeObject
  | comma
  | colon
  | scalar (s : Scalar)
  deriving DecidableEq

/-! ### String literals -/

/-- A character as written, or the UTF-16 unit that an escape names. -/
inductive Piece where
  | char (c : Char)
  | unit (n : Nat)
  deriving DecidableEq

/-- The text of pieces: units of a surrogate pair join, and a lone half has no text. -/
def Piece.text? : List Piece → Option (List Char)
  | [] => some []
  | .char c :: rest => (text? rest).map (c :: ·)
  | .unit n :: .unit m :: rest =>
    if 0xd800 ≤ n ∧ n < 0xdc00 then
      if 0xdc00 ≤ m ∧ m < 0xe000 then
        (text? rest).map (Char.ofNat (0x10000 + (n - 0xd800) * 0x400 + (m - 0xdc00)) :: ·)
      else none
    else if 0xdc00 ≤ n ∧ n < 0xe000 then none
    else (text? (.unit m :: rest)).map (Char.ofNat n :: ·)
  | .unit n :: rest =>
    if 0xd800 ≤ n ∧ n < 0xe000 then none else (text? rest).map (Char.ofNat n :: ·)

/-- The pieces up to the closing quote, and what follows it. -/
def pieces? : List Char → Option (List Piece × List Char)
  | [] => none
  | '"' :: rest => some ([], rest)
  | '\\' :: 'u' :: p :: q :: r :: s :: rest => do
    let n ← Number.ofHexDigits? [p, q, r, s]
    let (ps, rest) ← pieces? rest
    return (.unit n :: ps, rest)
  | '\\' :: c :: rest => do
    let d ← match c with
      | '"' => some '"'
      | '\\' => some '\\'
      | '/' => some '/'
      | 'b' => some '\x08'
      | 'f' => some '\x0c'
      | 'n' => some '\n'
      | 'r' => some '\r'
      | 't' => some '\t'
      | _ => none
    let (ps, rest) ← pieces? rest
    return (.char d :: ps, rest)
  | c :: rest => do
    if c.toNat < 32 ∨ c = '\\' then none
    let (ps, rest) ← pieces? rest
    return (.char c :: ps, rest)

/-! ### Numbers -/

/-- The leading digits, and what follows them. -/
def digits (cs : List Char) : List Char × List Char := (cs.takeWhile Char.isDigit, cs.dropWhile Char.isDigit)

/-- What a decimal digit stands for. -/
def digit (c : Char) : Nat := c.toNat - 48

/-- The number that decimal digits stand for. -/
def digitsValue (ds : List Char) : Nat := ds.foldl (fun n d => 10 * n + digit d) 0

/-- The digits behind a point, if there is one; then there must be digits. -/
def fraction? : List Char → Option (List Char × List Char)
  | '.' :: rest => if (digits rest).1.isEmpty then none else some (digits rest)
  | cs => some ([], cs)

/-- The digits of an exponent with its sign (`true` is minus); an `e` needs digits. -/
def exponent? : List Char → Option (Option (Bool × List Char) × List Char)
  | e :: rest =>
    if e = 'e' ∨ e = 'E' then
      let (negative, rest) := match rest with
        | '-' :: rest => (true, rest)
        | '+' :: rest => (false, rest)
        | rest => (false, rest)
      if (digits rest).1.isEmpty then none else some (some (negative, (digits rest).1), (digits rest).2)
    else some (none, e :: rest)
  | [] => some (none, [])

/-- The power of ten that an exponent asks for. -/
def power : Option (Bool × List Char) → Int
  | none => 0
  | some (true, ds) => -(digitsValue ds : Int)
  | some (false, ds) => digitsValue ds

/-- The scalar of a number: an integer if it is written as one and fits in 64 bits, and what is read for its digits
otherwise. Minus zero is a floating point number. -/
def number (negative : Bool) (whole fraction : List Char) (exponent : Option (Bool × List Char)) : Scalar :=
  let n := digitsValue whole
  let x := Number.ofDigits negative (whole.map digit) (fraction.map digit) (power exponent)
  match fraction, exponent, negative with
  | [], none, false => if n < UInt64.size then .integer n else .float x
  | [], none, true => if 0 < n ∧ n ≤ UInt64.size / 2 then .integer (-n) else .float x
  | _, _, _ => .float x

/-- A number without its sign: one zero or digits that do not start with zero, then perhaps a
fraction and an exponent. -/
def unsigned? (negative : Bool) (cs : List Char) : Option (Scalar × List Char) := do
  let (whole, rest) ← match cs with
    | '0' :: rest => some (['0'], rest)
    | cs => if (digits cs).1.isEmpty then none else some (digits cs)
  let (fraction, rest) ← fraction? rest
  let (exponent, rest) ← exponent? rest
  return (number negative whole fraction exponent, rest)

/-! ### Tokens -/

/-- The token at the start of a text that does not begin with a blank, and what follows it. -/
def token? : List Char → Option (Token × List Char)
  | '[' :: rest => some (.openArray, rest)
  | ']' :: rest => some (.closeArray, rest)
  | '\x7b' :: rest => some (.openObject, rest)
  | '\x7d' :: rest => some (.closeObject, rest)
  | ',' :: rest => some (.comma, rest)
  | ':' :: rest => some (.colon, rest)
  | 'n' :: 'u' :: 'l' :: 'l' :: rest => some (.scalar .null, rest)
  | 't' :: 'r' :: 'u' :: 'e' :: rest => some (.scalar (.bool true), rest)
  | 'f' :: 'a' :: 'l' :: 's' :: 'e' :: rest => some (.scalar (.bool false), rest)
  | '"' :: rest => (pieces? rest).map fun p => (.scalar (.string ((Piece.text? p.1).map String.ofList)), p.2)
  | '-' :: rest => (unsigned? true rest).map fun p => (.scalar p.1, p.2)
  | cs => (unsigned? false cs).map fun p => (.scalar p.1, p.2)

/-- The four blanks of JSON. -/
def isBlank (c : Char) : Bool := c = ' ' || c = '\n' || c = '\r' || c = '\t'

/-- The tokens of a text. Every token takes a character, so what follows it is shorter. -/
def tokens? : List Char → Option (List Token)
  | [] => some []
  | c :: cs =>
    if isBlank c then tokens? cs
    else do
      let (token, rest) ← token? (c :: cs)
      if rest.length ≤ cs.length then
        let tokens ← tokens? rest
        return token :: tokens
      else none
termination_by cs => cs.length

end Drafting.Json
