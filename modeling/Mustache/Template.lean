import Mustache.Error
import Mustache.Source.Parse
import Mustache.Tree.Text
import Mustache.Text.Quoted

/-!
This module contains compiled templates.
-/

namespace Mustache

/--
A compiled template: its tree, the source it was compiled from, and the path it was loaded from, if any.
-/
structure Template where
  fragment : Fragment
  source : String
  name : Option String := none

namespace Template

def compile (d : Delimiters) (source : String) (name : Option String := none) : Except Error Template :=
  match parse source d with
  | .ok fragment => return { fragment, source, name }
  | .error e => throw (.malformed e)

def text (t : Template) : String :=
  t.fragment.text

def debug (t : Template) : String :=
  Text.record "Template" [("name", Text.quotedOption t.name), ("source", Text.quoted t.source)]

end Template

end Mustache
