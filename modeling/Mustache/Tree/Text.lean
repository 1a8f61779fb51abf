import Mustache.Tree.Basic
import Mustache.Number.Notation

/-!
This module contains the text of a tree, as a template with given delimiters.
-/

namespace Mustache

def Param.text : Param → String
  | .path text => text
  | .str text => "\x22" ++ text ++ "\x22"
  | .int n => n.toInt.repr
  | .float x => Number.exactStyle.write x
  | .bool b => if b then "true" else "false"
  | .null => "null"

def Call.text (call : Call) : String :=
  call.name ++ String.join (call.params.map fun param => " " ++ param.text)
    ++ String.join (call.hash.entries.map fun (key, param) => " " ++ key ++ "=" ++ param.text)

def Opening.marker (o : Opening) : Char :=
  if o.inverted then '^' else '#'

def Opening.wrap (o : Opening) (d : Delimiters) (inner : String) : String :=
  d.start ++ String.singleton o.marker ++ o.call.text ++ d.stop ++ inner
    ++ d.start ++ "/" ++ o.call.name ++ d.stop

/--
A variable. The notation with three braces exists only beside the standard start delimiter.
-/
def Call.variableText (call : Call) (escape : Escape) (d : Delimiters) : String :=
  match escape with
  | .html => d.start ++ call.text ++ d.stop
  | .triple =>
    if d.start = Delimiters.standard.start then
      d.start ++ "\x7b" ++ call.text ++ "\x7d" ++ d.stop
    else
      d.start ++ "&" ++ call.text ++ d.stop
  | .ampersand => d.start ++ "&" ++ call.text ++ d.stop

mutual

/--
The text of a node. The inverse of a section is not part of it.
-/
def Node.textWith (d : Delimiters) : Node → String
  | .literal text => text
  | .comment text => d.start ++ "!" ++ text ++ d.stop
  | .variable call escape => call.variableText escape d
  | .inclusion path => d.start ++ ">" ++ path ++ d.stop
  | .block opening none _ => opening.wrap d ""
  | .block opening (some body) _ => opening.wrap d (Fragment.textWith d body)

def Fragment.textWith (d : Delimiters) : List Node → String
  | [] => ""
  | node :: nodes => node.textWith d ++ Fragment.textWith d nodes

end

def Node.text (node : Node) : String :=
  node.textWith .standard

def Fragment.text (fragment : Fragment) : String :=
  Fragment.textWith .standard fragment

end Mustache
