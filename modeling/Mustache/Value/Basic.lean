import Mustache.Date.DateTime
import Mustache.Dict
import Mustache.Number.Binary64

/-!
This module contains the values a template is rendered with.
-/

namespace Mustache

/--
A value of a model. Objects and lambdas belong to the host and are known by a number; what they do is said by
a `Host`.
-/
inductive Value where
  | null
  | bool (b : Bool)
  | int (n : Int64)
  | float (x : Float)
  | string (s : String)
  | date (t : DateTime)
  | array (items : List Value)
  | map (entries : List (String × Value))
  | object (id : Nat)
  | lambda (id : Nat)

namespace Value

def kind : Value → String
  | null => "null"
  | bool _ => "boolean"
  | int _ | float _ => "number"
  | string _ => "string"
  | date _ => "date"
  | array _ => "sequence"
  | map _ => "map"
  | object _ => "object"
  | lambda _ => "lambda"

def isNull : Value → Bool
  | null => true
  | _ => false

def bool? : Value → Option Bool
  | bool b => some b
  | _ => none

def string? : Value → Option String
  | string s => some s
  | _ => none

def date? : Value → Option DateTime
  | date t => some t
  | _ => none

def map? : Value → Option (List (String × Value))
  | map entries => some entries
  | _ => none

/--
A count. One that is too large for 64 bits with a sign becomes a floating point number.
-/
def ofNat (n : Nat) : Value :=
  if n ≤ Int64.maxValue.toInt then int (Int64.ofNat n) else float (Number.ofDecimal false n 0)

def ofEntries (entries : List (String × Value)) : Value :=
  map (Dict.ofList entries).entries

mutual

/--
Values are equal if they look the same; whole and floating point numbers are compared by what they count. NaN
equals nothing. Objects and lambdas are equal only to themselves.
-/
def equals : Value → Value → Bool
  | null, null => true
  | bool a, bool b => a == b
  | int a, int b => a == b
  | float a, float b => a == b
  | int a, float b => a.toFloat == b
  | float a, int b => a == b.toFloat
  | string a, string b => a == b
  | date a, date b => a == b
  | array a, array b => equalItems a b
  | map a, map b => equalEntries a b
  | object a, object b => a == b
  | lambda a, lambda b => a == b
  | _, _ => false

def equalItems : List Value → List Value → Bool
  | [], [] => true
  | a :: as, b :: bs => equals a b && equalItems as bs
  | _, _ => false

def equalEntries : List (String × Value) → List (String × Value) → Bool
  | [], [] => true
  | (k, a) :: as, (l, b) :: bs => k == l && equals a b && equalEntries as bs
  | _, _ => false

end

end Value

end Mustache
