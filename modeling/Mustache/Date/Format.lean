/-!
This module contains date formats: texts with fields that are filled in from a date. In a written format a field is
a percent sign and a code, and a percent sign that stands for itself is doubled.
-/

namespace Mustache

/--
A part of a date. Numbers may be padded with zeros to two digits, names may be short or full.
-/
inductive DateField where
  | year
  | yearOfCentury
  | month (padded : Bool)
  | monthName (full : Bool)
  | day (padded : Bool)
  | dayOfYear
  | weekdayName (full : Bool)
  | weekdayNumber
  | half
  | hour (padded : Bool)
  | hourOfHalf (padded : Bool)
  | minute (padded : Bool)
  | second (padded : Bool)
  | millisecond
  | zoneName
  | zoneOffset
deriving DecidableEq, Repr

namespace DateField

def code : DateField → List Char
  | year => ['Y']
  | yearOfCentury => ['y']
  | month padded => if padded then ['m'] else ['-', 'm']
  | monthName full => if full then ['B'] else ['b']
  | day padded => if padded then ['d'] else ['-', 'd']
  | dayOfYear => ['j']
  | weekdayName full => if full then ['A'] else ['a']
  | weekdayNumber => ['u']
  | half => ['p']
  | hour padded => if padded then ['H'] else ['-', 'H']
  | hourOfHalf padded => if padded then ['I'] else ['-', 'I']
  | minute padded => if padded then ['M'] else ['-', 'M']
  | second padded => if padded then ['S'] else ['-', 'S']
  | millisecond => ['3', 'f']
  | zoneName => ['Z']
  | zoneOffset => ['z']

def read? : List Char → Option (DateField × List Char)
  | 'Y' :: cs => some (year, cs)
  | 'y' :: cs => some (yearOfCentury, cs)
  | 'm' :: cs => some (month true, cs)
  | '-' :: 'm' :: cs => some (month false, cs)
  | 'B' :: cs => some (monthName true, cs)
  | 'b' :: cs => some (monthName false, cs)
  | 'd' :: cs => some (day true, cs)
  | '-' :: 'd' :: cs => some (day false, cs)
  | 'j' :: cs => some (dayOfYear, cs)
  | 'A' :: cs => some (weekdayName true, cs)
  | 'a' :: cs => some (weekdayName false, cs)
  | 'u' :: cs => some (weekdayNumber, cs)
  | 'p' :: cs => some (half, cs)
  | 'H' :: cs => some (hour true, cs)
  | '-' :: 'H' :: cs => some (hour false, cs)
  | 'I' :: cs => some (hourOfHalf true, cs)
  | '-' :: 'I' :: cs => some (hourOfHalf false, cs)
  | 'M' :: cs => some (minute true, cs)
  | '-' :: 'M' :: cs => some (minute false, cs)
  | 'S' :: cs => some (second true, cs)
  | '-' :: 'S' :: cs => some (second false, cs)
  | '3' :: 'f' :: cs => some (millisecond, cs)
  | 'Z' :: cs => some (zoneName, cs)
  | 'z' :: cs => some (zoneOffset, cs)
  | _ => none

theorem read?_code_append (field : DateField) (cs : List Char) :
    read? (field.code ++ cs) = some (field, cs) := by
  cases field with
  | month b | monthName b | day b | weekdayName b | hour b | hourOfHalf b | minute b | second b =>
    cases b <;> rfl
  | _ => rfl

theorem read?_eq_some {cs rest : List Char} {field : DateField} (h : read? cs = some (field, rest)) :
    cs = field.code ++ rest := by
  unfold read? at h
  split at h <;> cases h <;> rfl

theorem code_length_pos (field : DateField) : 0 < field.code.length := by
  cases field with
  | month b | monthName b | day b | weekdayName b | hour b | hourOfHalf b | minute b | second b =>
    cases b <;> decide
  | _ => decide

end DateField

inductive DateItem where
  | literal (c : Char)
  | field (field : DateField)
deriving DecidableEq, Repr

def DateItem.code : DateItem → List Char
  | literal c => if c = '%' then ['%', '%'] else [c]
  | field f => '%' :: f.code

def DateItem.text (shown : DateField → String) : DateItem → String
  | literal c => String.singleton c
  | field f => shown f

namespace DateFormat

/--
Reads a written format by the codes of the fields alone; `none` if a percent sign stands before anything but one of
them or another percent sign.
-/
def read? (cs : List Char) : Option (List DateItem) :=
  match cs with
  | [] => some []
  | '%' :: '%' :: cs => (read? cs).map (.literal '%' :: ·)
  | '%' :: cs =>
    match h : DateField.read? cs with
    | none => none
    | some (field, rest) =>
      have : rest.length < cs.length := by
        rw [DateField.read?_eq_some h, List.length_append]
        have := field.code_length_pos
        omega
      (read? rest).map (.field field :: ·)
  | c :: cs => (read? cs).map (.literal c :: ·)
termination_by cs.length

end DateFormat

end Mustache
