import Drafting.Time.Calendar

/-! Points in time and their text.

A timestamp is written in UTC with a closing `Z` and with no fraction or one of
three, six or nine digits, whichever is the shortest that is exact. Reading is
wider: any offset from UTC, `T` or a blank between date and time, blanks around
the parts, digits without leading zeros, signed years of any length. -/
namespace Drafting

/-- A point in time. Within a leap second `nanos` goes on from a billion. -/
structure Timestamp where
  /-- Seconds since 1970-01-01T00:00:00Z. -/
  seconds : Int
  nanos : Nat
  deriving DecidableEq, Repr, Inhabited

namespace Timestamp

/-! ### Writing -/

/-- `n` with at least `width` digits. -/
private def padded (width n : Nat) : String :=
  let digits := toString n
  String.ofList (List.replicate (width - digits.length) '0') ++ digits

/-- Four digits, or more with a sign. -/
private def yearText (year : Int) : String :=
  if 0 ≤ year ∧ year ≤ 9999 then padded 4 year.toNat
  else (if year < 0 then "-" else "+") ++ padded 4 year.natAbs

private def fractionText (nanos : Nat) : String :=
  if nanos = 0 then ""
  else if nanos % 1000000 = 0 then "." ++ padded 3 (nanos / 1000000)
  else if nanos % 1000 = 0 then "." ++ padded 6 (nanos / 1000)
  else "." ++ padded 9 nanos

/-- The written form, in UTC. -/
def text (t : Timestamp) : String :=
  let date := Date.ofDays (t.seconds / 86400)
  let clock := (t.seconds % 86400).toNat
  let (second, nanos) :=
    if t.nanos < 1000000000 then (clock % 60, t.nanos) else (clock % 60 + 1, t.nanos - 1000000000)
  yearText date.year ++ "-" ++ padded 2 date.month ++ "-" ++ padded 2 date.day ++ "T" ++
    padded 2 (clock / 3600) ++ ":" ++ padded 2 (clock / 60 % 60) ++ ":" ++ padded 2 second ++
    fractionText nanos ++ "Z"

/-! ### Reading -/

/-- The characters with the property White_Space. -/
def isBlank (c : Char) : Bool :=
  let n := c.toNat
  (9 ≤ n && n ≤ 13) || n == 0x20 || n == 0x85 || n == 0xa0 || n == 0x1680 || (0x2000 ≤ n && n ≤ 0x200a) ||
    n == 0x2028 || n == 0x2029 || n == 0x202f || n == 0x205f || n == 0x3000

private def trim (cs : List Char) : List Char := cs.dropWhile isBlank

private def value (ds : List Char) : Nat := ds.foldl (fun n d => 10 * n + (d.toNat - 48)) 0

/-- The digits at the start, at most `most` of them, and what follows. -/
private def digits? (most : Nat) (cs : List Char) : Option (List Char × List Char) :=
  let ds := (cs.take most).takeWhile Char.isDigit
  if ds.isEmpty then none else some (ds, cs.drop ds.length)

/-- A number of at most `most` digits, perhaps behind blanks. -/
private def number? (most : Nat) (cs : List Char) : Option (Nat × List Char) :=
  (digits? most (trim cs)).map fun p => (value p.1, p.2)

/-- A year: at most four digits, or a sign and any number of them. -/
private def year? (cs : List Char) : Option (Int × List Char) :=
  match trim cs with
  | '-' :: rest => (digits? rest.length rest).map fun p => (-(value p.1 : Int), p.2)
  | '+' :: rest => (digits? rest.length rest).map fun p => ((value p.1 : Int), p.2)
  | rest => (digits? 4 rest).map fun p => ((value p.1 : Int), p.2)

private def expect? (c : Char) (cs : List Char) : Option (List Char) :=
  match trim cs with
  | d :: rest => if d = c then some rest else none
  | [] => none

/-- Nanoseconds behind a point, if there is one; digits after the ninth count for nothing. -/
private def fraction? : List Char → Option (Nat × List Char)
  | '.' :: rest => do
    let (ds, rest) ← digits? 9 rest
    return (value ds * Nat.pow 10 (9 - ds.length), rest.dropWhile Char.isDigit)
  | cs => some (0, cs)

/-- Two digits. -/
private def pair? : List Char → Option (Nat × List Char)
  | p :: q :: rest => if p.isDigit ∧ q.isDigit then some (value [p, q], rest) else none
  | _ => none

/-- Seconds east of UTC: `Z`, `UTC`, or a sign with hours and minutes. -/
private def offset? (cs : List Char) : Option (Int × List Char) :=
  match trim cs with
  | 'Z' :: rest | 'z' :: rest => some (0, rest)
  | s :: rest =>
    if ((s :: rest).take 3).map Char.toUpper = ['U', 'T', 'C'] then some (0, rest.drop 2)
    else if s = '+' ∨ s = '-' ∨ s = '\u2212' then do
      let (hours, rest) ← pair? rest
      let (minutes, rest) ← pair? (rest.dropWhile fun c => c = ':' || isBlank c)
      if 60 ≤ minutes then none
      let east : Int := hours * 3600 + minutes * 60
      return (if s = '+' then east else -east, rest)
    else none
  | [] => none

/-- The years that a date can have. -/
private def isYear (year : Int) : Bool := -262143 ≤ year && year ≤ 262142

/-- Reads a date, a time of day and an offset from UTC. -/
def ofText? (s : String) : Option Timestamp := do
  let (year, cs) ← year? s.toList
  let (month, cs) ← number? 2 (← expect? '-' cs)
  let (day, cs) ← number? 2 (← expect? '-' cs)
  let cs ← match cs with
    | c :: rest => if c = 'T' ∨ c = 't' ∨ c = ' ' then some rest else none
    | [] => none
  let (hour, cs) ← number? 2 cs
  let (minute, cs) ← number? 2 (← expect? ':' cs)
  let (second, cs) ← number? 2 (← expect? ':' cs)
  let (nanos, cs) ← fraction? cs
  let (east, cs) ← offset? cs
  let date : Date := ⟨year, month, day⟩
  if (trim cs).isEmpty ∧ date.IsValid ∧ isYear year ∧ hour < 24 ∧ minute < 60 ∧ second ≤ 60 ∧
      east.natAbs < 86400 then
    let leap := second = 60
    let seconds : Int := date.toDays * 86400 + hour * 3600 + minute * 60 + (if leap then 59 else second) - east
    if isYear (Date.ofDays (seconds / 86400)).year then
      return ⟨seconds, if leap then nanos + 1000000000 else nanos⟩
    else none
  else none

end Timestamp

end Drafting
