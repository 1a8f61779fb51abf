import Mustache.Text.Search

/-!
This module contains paths: how a template names a value.
-/

namespace Mustache

inductive PathStart where
  | current
  | name (name : String)
deriving DecidableEq, Repr

/--
A path: how many scopes it goes out, where it begins there, and the members it then goes through.
-/
structure Path where
  ups : Nat
  start : PathStart
  members : List String
deriving DecidableEq, Repr

namespace Path

def membersOf (cs : List Char) : List String :=
  if cs.isEmpty then [] else (Text.splitAll '.' cs).map String.ofList

/--
Reads a path that does not go out of its scope. `this` and `.` are the value of the scope, `this.` and `./` lead to
its members.
-/
def ofLocal (cs : List Char) : Path :=
  if cs = "this".toList || cs = ['.'] then
    ⟨0, .current, []⟩
  else
    match "this.".toList.isPrefixOf? cs <|> ['.', '/'].isPrefixOf? cs with
    | some rest => ⟨0, .current, membersOf rest⟩
    | none =>
      match Text.splitOnce '.' cs with
      | some (first, rest) => ⟨0, .name (String.ofList first), membersOf rest⟩
      | none => ⟨0, .name (String.ofList cs), []⟩

/--
Reads a path. Each `../` in front goes out one scope.
-/
def ofChars : List Char → Path
  | '.' :: '.' :: '/' :: cs =>
    let path := ofChars cs
    { path with ups := path.ups + 1 }
  | cs => ofLocal cs

def ofString (s : String) : Path :=
  ofChars s.toList

end Path

end Mustache
