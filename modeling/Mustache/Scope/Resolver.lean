import Mustache.Host
import Mustache.Number.Read

/-!
This module contains the resolvers for the members of maps, sequences and objects.
-/

namespace Mustache.Resolver

variable {σ : Type}

def map : Resolver σ := fun data name =>
  match data with
  | .map entries => return entries.lookup name
  | _ => return none

/--
The number of some elements under `length`, and the elements under their numbers.
-/
def element? (items : List Value) (name : String) : Option Value :=
  if name = "length" then
    some (.ofNat items.length)
  else
    (Number.readCount name.toList).bind (items[·]?)

def index (h : Host σ) : Resolver σ := fun data name => do
  match ← h.elements? data with
  | some items => return element? items name
  | none => return none

def object (h : Host σ) : Resolver σ := fun data name =>
  match data with
  | .object id => h.member id name
  | _ => return none

def builtIn (h : Host σ) : List (Resolver σ) :=
  [map, index h, object h]

end Mustache.Resolver
