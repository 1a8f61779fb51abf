/-!
This module contains dates with a time of day, in the calendar that is used today, extended to all years.
-/

namespace Mustache

/--
A date and a time of day. In a leap second the nanoseconds go on beyond those of an ordinary second.
-/
structure DateTime where
  year : Int
  month : Nat
  day : Nat
  hour : Nat := 0
  minute : Nat := 0
  second : Nat := 0
  nano : Nat := 0
deriving DecidableEq, Repr

def padded (width n : Nat) : String :=
  let digits := Nat.toDigits 10 n
  String.ofList (List.replicate (width - digits.length) '0' ++ digits)

def yearText (year : Int) : String :=
  if 0 ≤ year && year ≤ 9999 then padded 4 year.natAbs
  else (if year < 0 then "-" else "+") ++ padded 4 year.natAbs

namespace DateTime

def isMidnight (t : DateTime) : Bool :=
  t.hour == 0 && t.minute == 0 && t.second == 0 && t.nano == 0

def shownSecond (t : DateTime) : Nat :=
  t.second + t.nano / 1000000000

def shownNano (t : DateTime) : Nat :=
  t.nano % 1000000000

def isLeapYear (year : Int) : Bool :=
  year % 4 == 0 && (year % 100 != 0 || year % 400 == 0)

def daysBeforeMonth (leap : Bool) (month : Nat) : Nat :=
  let february := if leap then 29 else 28
  ([31, february, 31, 30, 31, 30, 31, 31, 30, 31, 30].take (month - 1)).foldl (· + ·) 0

def dayOfYear (t : DateTime) : Nat :=
  daysBeforeMonth (isLeapYear t.year) t.month + t.day

def daysBeforeYear (year : Int) : Int :=
  let past := year - 1
  365 * past + past / 4 - past / 100 + past / 400

def weekday (t : DateTime) : Nat :=
  ((daysBeforeYear t.year + t.dayOfYear) % 7).toNat

def dateText (t : DateTime) : String :=
  yearText t.year ++ "-" ++ padded 2 t.month ++ "-" ++ padded 2 t.day

def fractionText (t : DateTime) : String :=
  let n := t.shownNano
  if n = 0 then ""
  else if n % 1000000 = 0 then "." ++ padded 3 (n / 1000000)
  else if n % 1000 = 0 then "." ++ padded 6 (n / 1000)
  else "." ++ padded 9 n

def timeText (t : DateTime) : String :=
  padded 2 t.hour ++ ":" ++ padded 2 t.minute ++ ":" ++ padded 2 t.shownSecond ++ t.fractionText

def fullText (t : DateTime) : String :=
  t.dateText ++ " " ++ t.timeText

def text (t : DateTime) : String :=
  if t.isMidnight then t.dateText else t.fullText

def debug (t : DateTime) : String :=
  t.dateText ++ "T" ++ t.timeText

end DateTime

end Mustache
