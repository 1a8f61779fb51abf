import Mustache.Error
import Mustache.Scope.Basic

/-!
This module contains the host: what the objects and lambdas of a model do.
-/

namespace Mustache

/--
A function of the host. It is given the scope and the text of the body that it is called for.
-/
abbrev Callable (σ : Type) := Scope σ → String → ExceptT Error (StateM σ) Value

/--
What objects and lambdas do. All that may answer differently from call to call depends on a state `σ`.
-/
structure Host (σ : Type) where
  member : Nat → String → StateM σ (Option Value)
  elements : Nat → StateM σ (Option (List Value))
  objectCallable? : Nat → Option (Callable σ)
  callable : Nat → Callable σ
  objectText : Nat → String
  objectDebug : Nat → String

namespace Host

variable {σ : Type} (h : Host σ)

def text (v : Value) : String :=
  v.text h.objectText

def debug (v : Value) : String :=
  v.debug h.objectDebug

def elements? : Value → StateM σ (Option (List Value))
  | .array items => return some items
  | .object id => h.elements id
  | _ => return none

def isIterable (v : Value) : StateM σ Bool :=
  return (← h.elements? v).isSome

def callable? : Value → Option (Callable σ)
  | .lambda id => some (h.callable id)
  | .object id => h.objectCallable? id
  | _ => none

def isFalsy : Value → StateM σ Bool
  | .null => return true
  | .bool b => return !b
  | .int n => return n == 0
  | .float x => return x == 0.0
  | .string s => return s.isEmpty
  | .array items => return items.isEmpty
  | .map entries => return entries.isEmpty
  | .object id => return (← h.elements id).any List.isEmpty
  | .date _ | .lambda _ => return false

end Host

end Mustache
