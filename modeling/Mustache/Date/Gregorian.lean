import Mustache.Date.Calendar
import Mustache.Date.Names

/-!
This module contains a calendar, with names for the locales of several countries. All dates are those of UTC.
-/

namespace Mustache

def DateField.number (isPadded : Bool) (n : Nat) : String :=
  padded (if isPadded then 2 else 1) n

def DateField.text (names : DateNames) (t : DateTime) : DateField → String
  | year => yearText t.year
  | yearOfCentury => padded 2 (t.year % 100).toNat
  | month padded => number padded t.month
  | monthName full => (if full then names.longMonths else names.shortMonths).getD (t.month - 1) ""
  | day padded => number padded t.day
  | dayOfYear => padded 3 t.dayOfYear
  | weekdayName full => (if full then names.longDays else names.shortDays).getD t.weekday ""
  | weekdayNumber => (if t.weekday = 0 then 7 else t.weekday).repr
  | half => if t.hour < 12 then names.halves.1 else names.halves.2
  | hour padded => number padded t.hour
  | hourOfHalf padded => number padded (if t.hour % 12 = 0 then 12 else t.hour % 12)
  | minute padded => number padded t.minute
  | second padded => number padded t.shownSecond
  | millisecond => padded 3 (t.shownNano / 1000000)
  | zoneName => "UTC"
  | zoneOffset => "+0000"

namespace Calendar

def gregorian : Calendar where
  knows locale := (DateNames.byLocale.lookup locale).isSome
  read locale format :=
    let names := (DateNames.byLocale.lookup locale).getD .english
    (DateFormat.read? format.toList).map fun items t =>
      some (String.join (items.map (DateItem.text (·.text names t))))

end Calendar

end Mustache
