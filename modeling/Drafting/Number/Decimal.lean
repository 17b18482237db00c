/-! Decimals near a binary number.

A positive number `m · 2 ^ e` stands for every real that rounds to it, a small
interval. `shortest` looks for the decimal with the fewest digits in that
interval: for 1, 2, 3, … digits it tests the two neighbours of the number on the
grid of decimals with that many digits, takes the first grid with a hit, and of
two hits the nearer one. `rounded` keeps a fixed number of digits instead. All
comparisons are between whole numbers. -/
namespace Drafting.Number

/-- The decimal `digits · 10 ^ exponent`. -/
structure Decimal where
  digits : Nat
  exponent : Int
  deriving DecidableEq, Repr

/-- The number of decimal digits of `n`; zero has one. -/
def digitCount (n : Nat) : Nat := (Nat.toDigits 10 n).length

/-- A positive binary number `m · 2 ^ e` against the decimals with step `10 ^ k`: the number is
`value / step` steps, and `unit / step` is what a quarter of its last binary place is worth. -/
structure Grid where
  value : Nat
  unit : Nat
  step : Nat

namespace Grid

def of (m : Nat) (e k : Int) : Grid where
  value := 4 * m * (Nat.pow 2 (e - 2).toNat * Nat.pow 10 (-k).toNat)
  unit := Nat.pow 2 (e - 2).toNat * Nat.pow 10 (-k).toNat
  step := Nat.pow 2 (2 - e).toNat * Nat.pow 10 k.toNat

/-- The largest whole number of steps not above the value. -/
def below (g : Grid) : Nat := g.value / g.step

/-- The nearest whole number of steps; of two the even one. -/
def nearest (g : Grid) : Nat :=
  let rest := g.value % g.step
  if 2 * rest < g.step then g.below
  else if 2 * rest = g.step then g.below + g.below % 2
  else g.below + 1

/-- The nearest whole number of steps inside the interval that reaches `lower` units down and
`upper` units up; its ends belong to it if `closed`. Of two equally near the larger one. -/
def within (g : Grid) (lower upper : Nat) (closed : Bool) : Option Nat :=
  let rest := g.value % g.step
  let gap := g.step - rest
  let reaches (distance width : Nat) : Bool :=
    distance < width * g.unit || (closed && distance == width * g.unit)
  if rest = 0 then some g.below
  else
    match reaches rest lower, reaches gap upper with
    | true, true => some (if rest < gap then g.below else g.below + 1)
    | true, false => some g.below
    | false, true => some (g.below + 1)
    | false, false => none

end Grid

/-- The exponent of the leading decimal digit of `m · 2 ^ e`, for `m` positive. The binary exponent
times the logarithm of two is at most one off, and comparing with that power of ten settles it. -/
def leadingExponent (m : Nat) (e : Int) : Int :=
  let guess := ((m.log2 + e) * 30103).fdiv 100000
  if 0 < (Grid.of m e (guess + 1)).below then guess + 1
  else if 0 < (Grid.of m e guess).below then guess
  else guess - 1

/-- The same decimal without final zeros. -/
def Decimal.trim (d : Decimal) : Decimal :=
  let digits := Nat.toDigits 10 d.digits
  let kept := (digits.reverse.dropWhile (· == '0')).reverse
  let dropped := digits.length - kept.length
  ⟨d.digits / Nat.pow 10 dropped, d.exponent + dropped⟩

/-- The decimal with the fewest digits among those that round to `m · 2 ^ e`; seventeen digits
always suffice. Below a power of two the interval is half as wide as above it. -/
def shortest (m : Nat) (e : Int) : Decimal :=
  let lead := leadingExponent m e
  let lower := if m = Nat.pow 2 52 ∧ -1074 < e then 1 else 2
  let found := (List.range 17).findSome? fun (more : Nat) =>
    let k := lead - more
    ((Grid.of m e k).within lower 2 (m % 2 == 0)).map fun n => (⟨n, k⟩ : Decimal)
  (found.getD ⟨(Grid.of m e (lead - 16)).nearest, lead - 16⟩).trim

/-- The decimal with `places + 1` digits nearest to `m · 2 ^ e`; of two the one with even digits. -/
def rounded (places m : Nat) (e : Int) : Decimal :=
  let k := leadingExponent m e - places
  let n := (Grid.of m e k).nearest
  if digitCount n = places + 1 then ⟨n, k⟩ else ⟨n / 10, k + 1⟩

end Drafting.Number
