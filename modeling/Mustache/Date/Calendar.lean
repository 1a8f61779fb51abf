import Mustache.Date.DateTime
import Mustache.Date.Format
import Mustache.Error

/-!
This module contains calendars, which know how dates are written around the world. An engine relies on one that it is
given.
-/

namespace Mustache

structure Calendar where
  /-- There are data for the locale of this name. -/
  knows (locale : String) : Bool
  /-- What a format writes of a date in a locale, if the format can be read. The writing may fail, too. -/
  read (locale format : String) : Option (DateTime → Option String)

namespace Calendar

def write (c : Calendar) (locale format : String) (t : DateTime) : Except Error String :=
  match c.read locale format with
  | none => throw (.argumentType format "a valid date pattern")
  | some shown? =>
    match shown? t with
    | none => throw (.argumentType format "a valid date pattern")
    | some text => return text

def following (shown : DateTime → String) (rest : Option (DateTime → Option String)) :
    Option (DateTime → Option String) :=
  rest.map fun shown? t => (shown? t).map (shown t ++ ·)

/--
A calendar reads a format one item after another. It accepts the codes of all fields and can write each of them for
every date; all other characters stand for themselves.
-/
structure Reads (c : Calendar) (shown : String → DateField → DateTime → String) : Prop where
  nothing (locale : String) : c.read locale "" = some fun _ => some ""
  field (locale : String) (field : DateField) (rest : List Char) :
    c.read locale (String.ofList ('%' :: (field.code ++ rest))) =
      following (shown locale field) (c.read locale (String.ofList rest))
  percent (locale : String) (rest : List Char) :
    c.read locale (String.ofList ('%' :: '%' :: rest)) = following (fun _ => "%") (c.read locale (String.ofList rest))
  character (locale : String) {char : Char} (h : char ≠ '%') (rest : List Char) :
    c.read locale (String.ofList (char :: rest)) =
      following (fun _ => String.singleton char) (c.read locale (String.ofList rest))

end Calendar

end Mustache
