import Mustache.Error

/-!
This module contains the places that rendered text goes to.
-/

namespace Mustache

def utf8 (text : String) : List UInt8 :=
  text.toList.flatMap String.utf8EncodeChar

/--
A place that rendered text goes to: the texts that were taken as a whole, and what was cut off of the one behind them.
There may be room for a number of bytes only, and finishing the text may be refused.
-/
structure Sink where
  written : String := ""
  cut : List UInt8 := []
  room : Option Nat := none
  refusal : String := ""
  flushRefusal : Option String := none
  flushes : Nat := 0
deriving DecidableEq, Repr

namespace Sink

def received (s : Sink) : List UInt8 :=
  utf8 s.written ++ s.cut

/--
Takes a text, or as much of it as there is room for.
-/
def write (s : Sink) (text : String) : Except Error Unit × Sink :=
  match s.room with
  | none => (.ok (), { s with written := s.written ++ text })
  | some room =>
    let bytes := utf8 text
    if bytes.length ≤ room then
      (.ok (), { s with written := s.written ++ text, room := some (room - bytes.length) })
    else
      (.error (.writing s.refusal), { s with cut := s.cut ++ bytes.take room, room := some 0 })

def flush (s : Sink) : Except Error Unit × Sink :=
  let result :=
    match s.flushRefusal with
    | none => .ok ()
    | some cause => .error (.flushing cause)
  (result, { s with flushes := s.flushes + 1 })

end Sink

end Mustache
