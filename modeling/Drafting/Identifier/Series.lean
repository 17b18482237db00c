import Drafting.Identifier.Basic

/-! Series of constraint identifiers.

A `Series` is a name space and the number of identifiers drawn from it: the next
one is the identifier of that number in that space, so a seed fixes the whole
series. `Issuers` is a stock of handles on series. Several handles may share one
series, and a draw through any of them counts for all. -/
namespace Drafting

/-- A sequence of constraint identifiers and how far it has been used. -/
structure Series where
  space : Uuid
  drawn : Nat
  deriving DecidableEq, Repr, Inhabited

namespace Series

/-- The unused series in a name space. -/
def ofSpace (space : Uuid) : Series := ⟨space, 0⟩

/-- The unused series of a seed. -/
def ofSeed (seed : String) : Series := ofSpace (.named .objects seed.toUTF8.toList)

/-- The `n`-th identifier in a name space, counted from zero in 64 bits. -/
def nth (space : Uuid) (n : Nat) : ConstraintId := ⟨.named space (Sha1.bigEndian 8 n)⟩

/-- The identifier that comes next. -/
def next (s : Series) : ConstraintId := nth s.space s.drawn

/-- The series after one more draw. -/
def advance (s : Series) : Series := { s with drawn := s.drawn + 1 }

end Series

/-- Handles on series: `handles` says which series each handle draws from. -/
structure Issuers where
  series : List Series
  handles : List Nat
  deriving DecidableEq, Repr

namespace Issuers

/-- No handle yet. -/
def empty : Issuers := ⟨[], []⟩

/-- A handle on a series of its own. -/
def add (i : Issuers) (s : Series) : Issuers :=
  ⟨i.series ++ [s], i.handles ++ [i.series.length]⟩

/-- A further handle on the series of handle `h`. -/
def share? (i : Issuers) (h : Nat) : Option Issuers :=
  i.handles[h]?.map fun k => { i with handles := i.handles ++ [k] }

/-- One identifier through handle `h`. -/
def draw? (i : Issuers) (h : Nat) : Option (ConstraintId × Issuers) := do
  let k ← i.handles[h]?
  let s ← i.series[k]?
  return (s.next, { i with series := i.series.set k s.advance })

/-- `n` identifiers through handle `h`, in the order they are drawn. -/
def drawMany? (i : Issuers) (h : Nat) : Nat → Option (List ConstraintId × Issuers)
  | 0 => if h < i.handles.length then some ([], i) else none
  | n + 1 => do
    let (id, i) ← i.draw? h
    let (ids, i) ← i.drawMany? h n
    return (id :: ids, i)

/-! ### Runs -/

/-- What can be done with handles. They are numbered in the order in which they come in. -/
inductive Step where
  | start (seed : String)
  | share (handle : Nat)
  | draw (handle : Nat)
  deriving DecidableEq, Repr

/-- Takes one step: what is drawn, behind the handle it is drawn through, and the handles afterwards. -/
def step? (i : Issuers) : Step → Option (List (Nat × ConstraintId) × Issuers)
  | .start seed => some ([], i.add (.ofSeed seed))
  | .share h => (i.share? h).map fun i => ([], i)
  | .draw h => (i.draw? h).map fun (id, i) => ([(h, id)], i)

/-- Takes steps one after the other. -/
def run? : List Step → Issuers → Option (List (Nat × ConstraintId) × Issuers)
  | [], i => some ([], i)
  | step :: rest, i => do
    let (first, i) ← i.step? step
    let (others, i) ← i.run? rest
    return (first ++ others, i)

end Issuers

end Drafting
