import Mustache.Number.Binary64

/-!
This module contains the shortest decimal that reads back as a given floating point number.
-/

namespace Mustache.Number

structure Decimal where
  significand : Nat
  exponent : Int
deriving Repr, DecidableEq

/--
The numbers that read back as `value`: those from `low` to `high`, in units of `2 ^ exponent`, with both ends
included iff the mantissa is even.
-/
structure Rounding where
  low : Nat
  middle : Nat
  high : Nat
  exponent : Int
  closed : Bool

/--
Halfway to the neighbours of `value`. Below a power of two the neighbours are twice as dense as above.
-/
def Binary64.rounding (value : Binary64) : Rounding :=
  let middle := 4 * value.mantissa
  let dense := value.mantissa == leadingBit && -1074 < value.exponent
  {
    low := if dense then middle - 1 else middle - 2
    middle
    high := middle + 2
    exponent := value.exponent - 2
    closed := value.mantissa % 2 == 0
  }

def Rounding.onGrid (r : Rounding) (exponent : Int) : Option Nat :=
  let unit := power 2 r.exponent * power 10 (-exponent)
  let step := power 10 exponent * power 2 (-r.exponent)
  let lower := r.middle * unit / step
  let reads (point : Nat) : Bool :=
    if r.closed then
      r.low * unit ≤ point * step && point * step ≤ r.high * unit
    else
      r.low * unit < point * step && point * step < r.high * unit
  let upperIsNearer := (lower + 1) * step - r.middle * unit ≤ r.middle * unit - lower * step
  if 0 < lower && reads lower then
    if reads (lower + 1) && upperIsNearer then some (lower + 1) else some lower
  else if reads (lower + 1) then
    some (lower + 1)
  else
    none

def Rounding.search (r : Rounding) (exponent : Int) : Nat → Decimal
  | 0 => ⟨r.middle * power 2 r.exponent * power 10 (-exponent)
      / (power 10 exponent * power 2 (-r.exponent)), exponent⟩
  | grids + 1 =>
    match r.onGrid exponent with
    | some point => ⟨point, exponent⟩
    | none => r.search (exponent - 1) grids

/--
The decimal with the fewest digits that reads back as `value`, and the nearest of those. The search starts on
a grid that is too coarse for the number and ends within the 17 digits that are always enough.
-/
def Binary64.shortest (value : Binary64) : Decimal :=
  let r := value.rounding
  let bits : Int := r.high.log2 + 1 + r.exponent
  r.search (bits * 30103 / 100000 + 2) 25

end Mustache.Number
