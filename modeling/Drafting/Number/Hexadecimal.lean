/-! Hexadecimal digits, lower case when written and of either case when read. -/
namespace Drafting.Number

/-- The digit of a number below sixteen. -/
def hexDigit (n : Nat) : Char :=
  if n < 10 then Char.ofNat (48 + n) else Char.ofNat (87 + n)

/-- The value of a digit. -/
def hexValue? (c : Char) : Option Nat :=
  if '0' ≤ c ∧ c ≤ '9' then some (c.toNat - 48)
  else if 'a' ≤ c ∧ c ≤ 'f' then some (c.toNat - 87)
  else if 'A' ≤ c ∧ c ≤ 'F' then some (c.toNat - 55)
  else none

/-- The lowest `count` digits of `n`, the highest first. -/
def hexDigits (count n : Nat) : List Char :=
  (List.range count).map fun i => hexDigit (n >>> (4 * (count - 1 - i)) % 16)

/-- The number that digits stand for, if they all are digits. -/
def ofHexDigits? (ds : List Char) : Option Nat :=
  ds.foldlM (fun n d => (hexValue? d).map (16 * n + ·)) 0

theorem hexValue?_hexDigit : ∀ n < 16, hexValue? (hexDigit n) = some n := by decide

end Drafting.Number
