import Mustache.Scope.Path
import Mustache.Value.Text

/-!
This module contains the scopes of a render and the lookup of paths in them. Asking a value for a member may
change the state `σ` of the host.
-/

namespace Mustache

/--
Answers what the member of a value is, or `none` if it does not know. That a member is null is an answer.
-/
abbrev Resolver (σ : Type) := Value → String → StateM σ (Option Value)

structure Frame where
  data : Value
  locals : Dict Value := ∅

/--
What can be seen from a place in a template: a frame, the frames around it from the inside out, and the resolvers
that are asked for members.
-/
structure Scope (σ : Type) where
  frame : Frame
  outer : List Frame := []
  resolvers : List (Resolver σ)

namespace Scope

variable {σ : Type}

def data (s : Scope σ) : Value :=
  s.frame.data

def child (s : Scope σ) (data : Value) (locals : Dict Value := ∅) : Scope σ :=
  { s with frame := ⟨data, locals⟩, outer := s.frame :: s.outer }

def parent? (s : Scope σ) : Option (Scope σ) :=
  match s.outer with
  | [] => none
  | frame :: outer => some { s with frame, outer }

def ancestor? (s : Scope σ) : Nat → Option (Scope σ)
  | 0 => some s
  | n + 1 => s.parent?.bind (ancestor? · n)

def depth (s : Scope σ) : Nat :=
  s.outer.length

def resolve (data : Value) (name : String) : List (Resolver σ) → StateM σ (Option Value)
  | [] => return none
  | resolver :: resolvers => do
    match ← resolver data name with
    | some value => return some value
    | none => resolve data name resolvers

def follow (resolvers : List (Resolver σ)) (data : Value) : List String → StateM σ (Option Value)
  | [] => return some data
  | name :: names => do
    match ← resolve data name resolvers with
    | some value => follow resolvers value names
    | none => return none

/--
The answer of the first frame that knows the name, as one of its locals or as a member of its value.
-/
def lookupIn (resolvers : List (Resolver σ)) (name : String) : List Frame → StateM σ (Option Value)
  | [] => return none
  | frame :: frames => do
    match frame.locals.get? name with
    | some value => return some value
    | none =>
      match ← resolve frame.data name resolvers with
      | some value => return some value
      | none => lookupIn resolvers name frames

def lookup (s : Scope σ) (name : String) : StateM σ (Option Value) :=
  lookupIn s.resolvers name (s.frame :: s.outer)

def begin (s : Scope σ) : PathStart → StateM σ (Option Value)
  | .current => return some s.data
  | .name name => s.lookup name

def find (s : Scope σ) (path : Path) : StateM σ (Option Value) := do
  match s.ancestor? path.ups with
  | none => return none
  | some s =>
    match ← s.begin path.start with
    | none => return none
    | some value => follow s.resolvers value path.members

def get (s : Scope σ) (path : String) : StateM σ (Option Value) :=
  s.find (.ofString path)

def debug (s : Scope σ) (objectDebug : Nat → String) : String :=
  Text.record "Context" [
    ("data", s.data.debug objectDebug),
    ("locals", Text.braced (Value.entryDebugs objectDebug s.frame.locals.entries)),
    ("depth", s.depth.repr)]

end Scope

end Mustache
