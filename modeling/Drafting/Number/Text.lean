import Drafting.Number.Decimal

/-! Numbers as text.

One printer serves all spellings that appear in output, and a `Spelling` holds
what sets them apart: which magnitudes are written without an exponent, and
whether a whole number keeps its `.0`. `scientific` is a form with a fixed number
of places, for residuals in the log. -/
namespace Drafting.Number

open Float.Model (UnpackedFloat)

/-- What sets one way of writing numbers apart from another. -/
structure Spelling where
  /-- Whether a number whose leading digit stands for `10 ^ e` is written without an exponent. -/
  positional : Int → Bool
  /-- Whether a whole number is written with a fraction, as in `5.0`. -/
  fraction : Bool

/-- In sentences: never an exponent, and whole numbers without a fraction. -/
def prose : Spelling := ⟨fun _ => true, false⟩

/-- In documents: a fraction or an exponent is always there, and exponents from -5 to 15 are written out. -/
def literal : Spelling := ⟨fun e => -5 ≤ e && e < 16, true⟩

/-- In sentences that quote a parameter: as in documents, but written out from exponent -4 on. -/
def quoted : Spelling := ⟨fun e => -4 ≤ e && e < 16, true⟩

private def zeros (n : Nat) : String := String.ofList (List.replicate n '0')

/-- The digits `ds` with a point after the first one, if there are more. -/
private def pointed : List Char → String
  | [] => ""
  | [d] => d.toString
  | d :: ds => d.toString ++ "." ++ String.ofList ds

/-- A positive decimal without final zeros. -/
def Spelling.decimal (s : Spelling) (d : Decimal) : String :=
  let digits := Nat.toDigits 10 d.digits
  let lead : Int := digits.length + d.exponent - 1
  if s.positional lead then
    if 0 ≤ d.exponent then
      String.ofList digits ++ zeros d.exponent.toNat ++ (if s.fraction then ".0" else "")
    else if 0 ≤ lead then
      String.ofList (digits.take (lead.toNat + 1)) ++ "." ++ String.ofList (digits.drop (lead.toNat + 1))
    else "0." ++ zeros ((-lead).toNat - 1) ++ String.ofList digits
  else pointed digits ++ "e" ++ toString lead

private def signed : UnpackedFloat.Sign → String → String
  | .positive, text => text
  | .negative, text => "-" ++ text

/-- The text of a number: the fewest digits that read back, in the given spelling. -/
def Spelling.text (s : Spelling) (x : Float) : String :=
  match x.toModel.unpack with
  | .notANumber => "NaN"
  | .infinity sign => signed sign "inf"
  | .zero sign => signed sign (if s.fraction then "0.0" else "0")
  | .finite sign m e _ => signed sign (s.decimal (shortest m e))

/-- The text of a number with one digit before the point, `places` after it, and an exponent. -/
def scientific (places : Nat) (x : Float) : String :=
  match x.toModel.unpack with
  | .notANumber => "NaN"
  | .infinity sign => signed sign "inf"
  | .zero sign => signed sign (pointed (List.replicate (places + 1) '0') ++ "e0")
  | .finite sign m e _ =>
    let d := rounded places m e
    signed sign (pointed (Nat.toDigits 10 d.digits) ++ "e" ++ toString (d.exponent + places))

/-! ### Reading

Digits are taken up into a whole number of 64 bits, and those that no longer fit only count as places. The whole number
becomes a floating point number, and is then multiplied or divided by a power of ten. All three are rounded,
the whole number, the power and the result, so what is read is near what is written but need not be the nearest
number. -/

/-- Takes up digits into a whole number as long as it has 64 bits: the number, and how many digits it has taken up. -/
def absorb : Nat → List Nat → Nat × Nat
  | n, [] => (n, 0)
  | n, d :: ds =>
    if 10 * n + d < UInt64.size then
      let (m, taken) := absorb (10 * n + d) ds
      (m, taken + 1)
    else (n, 0)

/-- The number nearest to `10 ^ k`. -/
def powerOfTen (k : Nat) : Float := Float.ofScientific 1 false k

/-- `x` with `k` more decimal places. There are powers of ten up to 308; beyond, all but zero is infinite. -/
def scaleUp (x : Float) (k : Nat) : Float :=
  if k ≤ 308 then x * powerOfTen k
  else if x == 0.0 then x
  else 1.0 / 0.0

/-- `x` with `k` fewer decimal places, as many as there are powers of ten for at a time. -/
def scaleDown (x : Float) (k : Nat) : Float :=
  if k ≤ 308 then x / powerOfTen k
  else if x == 0.0 then x
  else scaleDown (x / powerOfTen 308) (k - 308)
termination_by k

/-- The number read for `digits · 10 ^ exponent`, for digits of 64 bits; infinite if it is too large. -/
def magnitude (digits : Nat) (exponent : Int) : Float :=
  if 0 ≤ exponent then scaleUp digits.toUInt64.toFloat exponent.toNat
  else scaleDown digits.toUInt64.toFloat exponent.natAbs

/-- The number read for a sign, digits before and behind a point, and a power of ten. -/
def ofDigits (negative : Bool) (whole fraction : List Nat) (power : Int) : Float :=
  let (n, before) := absorb 0 whole
  let (n, behind) := absorb n fraction
  let x := magnitude n (power + (whole.length - before : Nat) - behind)
  if negative then -x else x

end Drafting.Number
