import Mustache.Error
import Mustache.Dict
import Mustache.Text.Search

/-!
This module contains the places templates are loaded from.
-/

namespace Mustache

def templateSuffix : String := ".hbs"

/--
The names a template may be stored under, in the order of the lookup: the path without slashes in front, then the
path with the suffix added or, if it is there already, removed.
-/
def candidates (path suffix : String) : List String :=
  let path := String.ofList (path.toList.dropWhile (· == '/'))
  if suffix.isEmpty then
    [path]
  else
    match Text.dropStop? suffix path with
    | some stem => if stem.isEmpty then [path] else [path, stem]
    | none => [path, path ++ suffix]

structure TemplateMap where
  templates : Dict String := ∅
  suffix : String := templateSuffix

namespace TemplateMap

def insert (m : TemplateMap) (name source : String) : TemplateMap :=
  { m with templates := m.templates.insert name source }

def withSuffix (m : TemplateMap) (suffix : String) : TemplateMap :=
  { m with suffix }

def load (m : TemplateMap) (path : String) : Except Error String :=
  match (candidates path m.suffix).findSome? m.templates.get? with
  | some source => return source
  | none => throw (.templateNotFound path)

end TemplateMap

/--
Gives the source of a template: by some lookup, or by the first of several loaders that finds it.
-/
inductive Loader (m : Type → Type) where
  | source (load : String → m (Except Error String))
  | chain (loaders : List (Loader m))

namespace Loader

section

variable {m : Type → Type} [Monad m]

mutual

def load (path : String) : Loader m → m (Except Error String)
  | source load => load path
  | chain loaders => loadFirst path loaders

/--
The answer of the first loader that does not say that there is no such template. The others are not asked.
-/
def loadFirst (path : String) : List (Loader m) → m (Except Error String)
  | [] => return throw (.templateNotFound path)
  | loader :: loaders => do
    match ← loader.load path with
    | .error (.templateNotFound _) => loadFirst path loaders
    | answer => return answer

end

end

def ofMap (m : TemplateMap) : Loader Id :=
  .source m.load

end Loader

end Mustache
