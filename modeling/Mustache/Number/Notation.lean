import Mustache.Number.Shortest

/-!
This module contains the written forms of floating point numbers.
-/

namespace Mustache.Number

/--
How a floating point number is written. The exponents are those of scientific notation.
-/
structure FloatStyle where
  keepsPoint : Bool
  /-- The least and the greatest exponent that is written without an exponent; all of them if absent. -/
  positional : Option (Int × Int)

/--
For readers: never an exponent, and no point in a whole number.
-/
def plainStyle : FloatStyle := ⟨false, none⟩

/--
For developers: always a point or an exponent, so that the text shows a floating point number; an exponent
below `0.0001` and from `10 ^ 16` on.
-/
def exactStyle : FloatStyle := ⟨true, some (-4, 15)⟩

def withPoint (keepsPoint : Bool) (digits : List Char) (point : Int) : List Char :=
  if point ≤ 0 then
    ['0', '.'] ++ List.replicate (-point).toNat '0' ++ digits
  else if digits.length ≤ point then
    digits ++ List.replicate (point.toNat - digits.length) '0' ++ if keepsPoint then ['.', '0'] else []
  else
    digits.take point.toNat ++ '.' :: digits.drop point.toNat

def withExponent (digits : List Char) (exponent : Int) : List Char :=
  digits.take 1 ++ (if 1 < digits.length then '.' :: digits.drop 1 else []) ++ 'e' :: exponent.repr.toList

def FloatStyle.writeDecimal (style : FloatStyle) (d : Decimal) : List Char :=
  let digits := Nat.toDigits 10 d.significand
  let point := digits.length + d.exponent
  match style.positional with
  | none => withPoint style.keepsPoint digits point
  | some (least, greatest) =>
    if least ≤ point - 1 && point - 1 ≤ greatest then
      withPoint style.keepsPoint digits point
    else
      withExponent digits (point - 1)

def FloatStyle.write (style : FloatStyle) (x : Float) : String :=
  let sign := if isNegative x then ['-'] else []
  match magnitude x with
  | .notANumber => "NaN"
  | .infinite => String.ofList (sign ++ ['i', 'n', 'f'])
  | .zero => String.ofList (sign ++ if style.keepsPoint then ['0', '.', '0'] else ['0'])
  | .finite value => String.ofList (sign ++ style.writeDecimal value.shortest)

end Mustache.Number
