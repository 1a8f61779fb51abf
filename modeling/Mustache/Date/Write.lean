import Mustache.Date.Calendar
import Mustache.Date.Pattern
import Mustache.Date.Style
import Mustache.Locale

/-!
This module contains the writing of dates in a locale.
-/

namespace Mustache.Locale

/--
The names under which a calendar may have data for a locale, in the order of the lookup: with variant, with country,
and with the country that is called like the language.
-/
def calendarNames (l : Locale) : List String :=
  let withCountry :=
    match l.country, l.variant with
    | some country, some variant =>
      [l.language ++ "_" ++ country ++ "@" ++ variant, l.language ++ "_" ++ country]
    | some country, none => [l.language ++ "_" ++ country]
    | none, _ => []
  withCountry ++ [l.language ++ "_" ++ l.language.map Char.toUpper]

def dateFormat (l : Locale) (pattern : String) : Except Error String :=
  DatePattern.toFormat (((DateStyles.ofLanguage l.language).pattern? pattern).getD pattern)

end Mustache.Locale
