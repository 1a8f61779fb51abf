import Mustache.Loader.Basic

/-!
This module contains a tree of directories and files as a place templates are loaded from.
-/

namespace Mustache

/--
A file, or a directory with what is in it.
-/
inductive FileTree where
  | file (bytes : ByteArray)
  | directory (entries : List (String × FileTree))

namespace FileTree

def empty : FileTree := .directory []

def add (leaf : FileTree) : List String → FileTree → FileTree
  | [], _ => leaf
  | name :: names, tree =>
    let entries :=
      match tree with
      | .file _ => []
      | .directory entries => entries
    let inner := (entries.lookup name).getD empty
    .directory ((name, add leaf names inner) :: entries.filter (·.1 != name))

def namesOf (path : String) : List String :=
  (Text.splitAll '/' path.toList).map String.ofList

def isAbsolute (path : String) : Bool :=
  path.toList.head? == some '/'

def joined (location name : String) : String :=
  if isAbsolute name then
    name
  else if location.isEmpty || location.toList.getLast? == some '/' then
    location ++ name
  else
    location ++ "/" ++ name

def stays (name : String) : Bool :=
  name == "" || name == "."

def resolve (reached : List String) : List String → List String
  | [] => reached
  | name :: names =>
    if stays name then
      resolve reached names
    else if name = ".." then
      resolve reached.dropLast names
    else
      resolve (reached ++ [name]) names

/--
The place that a path from the top denotes, as the names that lead there from directory to directory.
-/
def place (path : String) : List String :=
  resolve [] (namesOf path)

/--
Goes from `here`, with `outer` the directories around it, through the names of a path. Only a directory has a way on,
also for a name that stays; `..` leaves it, and at the top it stays.
-/
def walk (outer : List FileTree) (here : FileTree) : List String → Option (List FileTree × FileTree)
  | [] => some (outer, here)
  | name :: names =>
    match here with
    | .file _ => none
    | .directory entries =>
      if stays name then
        walk outer here names
      else if name = ".." then
        match outer with
        | [] => walk [] here names
        | parent :: outer => walk outer parent names
      else
        match entries.lookup name with
        | some inner => walk (here :: outer) inner names
        | none => none

def at? (system : FileTree) (path : String) : Option FileTree :=
  (walk [] system (namesOf path)).map (·.2)

def pathLimit : Nat := 4095

def read? (system : FileTree) (path : String) : Option ByteArray :=
  if pathLimit < path.utf8ByteSize then
    none
  else
    match system.at? path with
    | some (.file bytes) => some bytes
    | _ => none

/--
The source of the template at a path from the directory at `location`. Whatever stands there has to be text in UTF-8.
-/
def load (system : FileTree) (location suffix path : String) : Except Error String :=
  match (candidates path suffix).findSome? fun name => system.read? (joined location name) with
  | none => throw (.templateNotFound path)
  | some bytes =>
    match String.fromUTF8? bytes with
    | some source => return source
    | none => throw (.unreadable "stream did not contain valid UTF-8")

end FileTree

/--
Loads from the directory `root`, which stands at `location` in `around`.
-/
def Loader.ofFiles (root : FileTree) (location : String) (suffix : String := templateSuffix)
    (around : FileTree := .empty) : Loader Id :=
  .source ((FileTree.add root (FileTree.place location) around).load location suffix)

end Mustache
