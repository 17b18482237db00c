/-! Remainders of floating point numbers.

`remainder x y` is `x - n * y` for the integer `n` that brings it nearest to zero
on the side of `x`. It is always representable: over the smaller of the two
binary exponents both operands are whole numbers, and so is what is left of their
division. `residue` moves a negative remainder up by one `|y|`. -/
namespace Drafting.Number

open Float.Model (UnpackedFloat)

/-- The number `± significand · 2 ^ exponent`, rounded to the nearest one that exists. -/
def ofBinary (sign : UnpackedFloat.Sign) (significand : Nat) (exponent : Int) : Float :=
  .ofModel (.pack (UnpackedFloat.round .binary64 sign significand exponent))

/-- What is left of `x` after taking `y` away a whole number of times, with the sign of `x`. -/
def remainder (x y : Float) : Float :=
  match x.toModel.unpack, y.toModel.unpack with
  | .finite s m e _, .finite _ n f _ =>
    let scale := min e f
    ofBinary s ((m <<< (e - scale).toNat) % (n <<< (f - scale).toNat)) scale
  | .zero _, .finite .. | .zero _, .infinity _ | .finite .., .infinity _ => x
  | _, _ => 0.0 / 0.0

/-- The remainder of `x` that is not below zero. Rounding may carry it up to `|y|` itself. -/
def residue (x y : Float) : Float :=
  let r := remainder x y
  if r < 0.0 then r + y.abs else r

end Drafting.Number
