import Mustache.Number.Binary64

/-!
This module contains the reading of numbers from text.
-/

namespace Mustache.Number

def readDigits (cs : List Char) : Option Nat :=
  if !cs.isEmpty && cs.all Char.isDigit then
    some (cs.foldl (fun n c => 10 * n + (c.toNat - '0'.toNat)) 0)
  else
    none

def takeSign : List Char → Bool × List Char
  | '-' :: cs => (true, cs)
  | '+' :: cs => (false, cs)
  | cs => (false, cs)

def readInt (cs : List Char) : Option Int :=
  let (negative, cs) := takeSign cs
  (readDigits cs).map fun n => if negative then -(n : Int) else n

def readInt64 (cs : List Char) : Option Int64 :=
  (readInt cs).bind fun n =>
    if Int64.minValue.toInt ≤ n && n ≤ Int64.maxValue.toInt then some (Int64.ofInt n) else none

def readCount (cs : List Char) : Option Nat :=
  match cs with
  | '+' :: cs => readDigits cs
  | cs => readDigits cs

def readExponent : List Char → Option Int
  | [] => some 0
  | c :: cs => if c == 'e' || c == 'E' then readInt cs else none

def readDecimal (negative : Bool) (cs : List Char) : Option Float :=
  let whole := cs.takeWhile Char.isDigit
  let rest := cs.dropWhile Char.isDigit
  let (fraction, rest) :=
    match rest with
    | '.' :: rest => (rest.takeWhile Char.isDigit, rest.dropWhile Char.isDigit)
    | rest => ([], rest)
  (readDigits (whole ++ fraction)).bind fun significand =>
    (readExponent rest).map fun exponent => ofDecimal negative significand (exponent - fraction.length)

/--
A floating point number: a decimal, infinity or NaN, with an optional sign. The two words may be written in any
case, and infinity may be shortened to its first three letters.
-/
def readFloat (cs : List Char) : Option Float :=
  let (negative, cs) := takeSign cs
  let word := String.ofList (cs.map Char.toLower)
  if word = "inf" || word = "infinity" then
    some (if negative then -(1.0 / 0.0) else 1.0 / 0.0)
  else if word = "nan" then
    some (0.0 / 0.0)
  else
    readDecimal negative cs

end Mustache.Number
