import Mustache.Error
import Mustache.Value.Basic

/-!
This module contains the values of data that come from elsewhere.
-/

namespace Mustache.Value

def ofFinite (x : Float) : Value :=
  if x.isFinite then float x else null

def key? : Value → Option String
  | string s => some s
  | int n => some n.toInt.repr
  | bool b => some (if b then "true" else "false")
  | _ => none

/--
A map with keys that need not be texts. Of two entries with the same key the later one counts.
-/
def ofKeyed (entries : List (Value × Value)) : Except Error Value :=
  match entries.mapM fun (key, value) => key.key?.map fun key => (key, value) with
  | some entries => return ofEntries entries
  | none => throw (.serialization "key must be a string")

end Mustache.Value
