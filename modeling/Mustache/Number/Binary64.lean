/-!
This module contains the step between a 64-bit binary floating point number and the exact value it stands
for, in both directions.
-/

namespace Mustache.Number

/--
A finite floating point number other than zero, without its sign: `mantissa * 2 ^ exponent`.
-/
structure Binary64 where
  mantissa : Nat
  exponent : Int
deriving Repr, DecidableEq

inductive Magnitude where
  | zero
  | finite (value : Binary64)
  | infinite
  | notANumber
deriving Repr, DecidableEq

def signBit : Nat := 0x8000000000000000

def leadingBit : Nat := 0x10000000000000

def infinityBits : Nat := 0x7FF0000000000000

def power (base : Nat) (exponent : Int) : Nat :=
  base.pow exponent.toNat

def isNegative (x : Float) : Bool :=
  signBit ≤ x.toBits.toNat

def magnitude (x : Float) : Magnitude :=
  let bits : Nat := x.toBits.toNat % signBit
  let biased : Nat := bits / leadingBit
  let fraction : Nat := bits % leadingBit
  if biased = 2047 then
    if fraction = 0 then .infinite else .notANumber
  else if biased = 0 then
    if fraction = 0 then .zero else .finite ⟨fraction, -1074⟩
  else
    .finite ⟨leadingBit + fraction, (biased : Int) - 1075⟩

def roundToEven (numerator denominator : Nat) : Nat :=
  let quotient := numerator / denominator
  let twice := 2 * (numerator % denominator)
  if twice < denominator || (twice == denominator && quotient % 2 == 0) then quotient else quotient + 1

/--
The bits of the floating point number nearest to `numerator / denominator`. The mantissa is read on the grid
`2 ^ exponent` on which it has 53 binary digits, or fewer on the last grid; a mantissa rounded up to 54 digits
carries into the exponent by itself.
-/
def nearestBits (numerator denominator : Nat) : Nat :=
  if numerator = 0 then
    0
  else
    let estimate : Int := (numerator.log2 : Int) - denominator.log2 - 53
    let exponent := max estimate (-1074)
    let exponent :=
      if 2 * leadingBit ≤ scaled exponent / below exponent then exponent + 1 else exponent
    min infinityBits ((exponent + 1074).toNat * leadingBit + roundToEven (scaled exponent) (below exponent))
where
  scaled (exponent : Int) : Nat := numerator * power 2 (-exponent)
  below (exponent : Int) : Nat := denominator * power 2 exponent

/--
The floating point number nearest to `± significand * 10 ^ exponent`. Exponents so far out that the result
is infinite or zero in any case are not computed with.
-/
def ofDecimal (negative : Bool) (significand : Nat) (exponent : Int) : Float :=
  let digits : Int := (Nat.toDigits 10 significand).length
  let bits :=
    if significand = 0 || digits + exponent < -330 then 0
    else if 330 < digits + exponent then infinityBits
    else nearestBits (significand * power 10 exponent) (power 10 (-exponent))
  Float.ofBits (UInt64.ofNat (bits + if negative then signBit else 0))

end Mustache.Number
