import Mustache.Dict

/-!
This module contains the tree of a template: texts, variables, included templates and sections.
-/

namespace Mustache

structure Delimiters where
  start : String
  stop : String
deriving DecidableEq, Repr

def Delimiters.standard : Delimiters := ⟨"\x7b\x7b", "\x7d\x7d"⟩

def Delimiters.isProper (d : Delimiters) : Bool :=
  d.start != "" && d.stop != ""

inductive Param where
  | path (text : String)
  | str (text : String)
  | int (n : Int64)
  | float (x : Float)
  | bool (b : Bool)
  | null

structure Call where
  name : String
  params : List Param := []
  hash : Dict Param := ∅

/--
How the text of a variable is written: escaped for HTML, or as it is, by one of two notations.
-/
inductive Escape where
  | html
  | triple
  | ampersand
deriving DecidableEq, Repr

def Escape.escapes : Escape → Bool
  | .html => true
  | .triple | .ampersand => false

structure Opening where
  call : Call
  inverted : Bool
  delimiters : Delimiters

/--
A part of a template. The body of a section may be missing while the section is under construction, the
inverse is its part behind an `else`.
-/
inductive Node where
  | literal (text : String)
  | comment (text : String)
  | variable (call : Call) (escape : Escape)
  | inclusion (path : String)
  | block (opening : Opening) (body inverse : Option (List Node))

/--
A template, or a part of one between two tags.
-/
abbrev Fragment := List Node

end Mustache
