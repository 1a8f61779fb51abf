import Mustache.Tree.Basic
import Mustache.Source.SyntaxError
import Mustache.Source.Words
import Mustache.Text.Alphanumeric
import Mustache.Text.Search
import Mustache.Number.Read

/-!
This module contains the reading of a call: the name in a tag and its arguments.
-/

namespace Mustache.Source

def isKeyChar (c : Char) : Bool :=
  Text.isAlphanumeric c || c == '_' || c == '-' || c == '@'

def hashPair? (word : List Char) : Option (List Char × List Char) :=
  (Text.splitOnce '=' word).filter fun (key, _) => !key.isEmpty && key.all isKeyChar

/--
Reads an argument: a quoted string, a constant, a number, or else a path. A number that is not whole has to
start with a digit or a minus.
-/
def readParam (word : List Char) : Param :=
  match unquote? word with
  | some inner => .str (String.ofList inner)
  | none =>
    if word = "true".toList then .bool true
    else if word = "false".toList then .bool false
    else if word = "null".toList then .null
    else
      match Number.readInt64 word with
      | some n => .int n
      | none =>
        match if word.head?.any (fun c => c.isDigit || c == '-') then Number.readFloat word else none with
        | some x => .float x
        | none => .path (String.ofList word)

def addArgument (call : Call) (word : List Char) : Except Fault Call :=
  match hashPair? word with
  | some (key, value) =>
    let key := String.ofList key
    if call.hash.contains key then
      throw (.duplicateArgument key)
    else
      return { call with hash := call.hash.insert key (readParam value) }
  | none => return { call with params := call.params ++ [readParam word] }

def readCall (content : List Char) : Except Fault Call :=
  match splitWords content with
  | none => throw .unterminatedString
  | some [] => throw .emptyTag
  | some (name :: arguments) =>
    if (unquote? name).isSome then
      throw (.literalName (String.ofList name))
    else
      arguments.foldlM addArgument { name := String.ofList name }

end Mustache.Source
