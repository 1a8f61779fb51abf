import Mustache.Source.SyntaxError

/-!
This module contains what can go wrong when templates are loaded, compiled and rendered.
-/

namespace Mustache

inductive Error where
  | argumentType (found expected : String)
  | templateNotFound (path : String)
  | malformed (cause : SyntaxError)
  | unreadable (cause : String)
  | serialization (cause : String)
  | writing (cause : String)
  | flushing (cause : String)
  | cannotLoad (path : String) (cause : Error)
  | cannotEmbed (path : String) (cause : Error)
  | missingBody (name : String)
  | custom (message : String)
deriving DecidableEq, Repr

inductive ErrorKind where
  | argumentType
  | templateNotFound
  | malformed
  | unreadable
  | serialization
  | render
deriving DecidableEq, Repr

namespace Error

def kind : Error → ErrorKind
  | argumentType .. => .argumentType
  | templateNotFound _ => .templateNotFound
  | malformed _ => .malformed
  | unreadable _ => .unreadable
  | serialization _ => .serialization
  | writing _ | flushing _ | cannotLoad .. | cannotEmbed .. | missingBody _ | custom _ => .render

def message : Error → String
  | argumentType found expected => "found '" ++ found ++ "', expected '" ++ expected ++ "'"
  | templateNotFound path => "template not found: " ++ path
  | malformed cause => "syntax error: " ++ cause.message
  | unreadable cause => "I/O error: " ++ cause
  | serialization cause => "serialization error: " ++ cause
  | writing _ => "writing output failed"
  | flushing _ => "flushing output failed"
  | cannotLoad path _ => "cannot load partial '" ++ path ++ "'"
  | cannotEmbed path _ => "cannot embed template '" ++ path ++ "'"
  | missingBody name => "section '" ++ name ++ "' has no body"
  | custom message => message

/--
The messages of what is behind an error, the nearest first.
-/
def causes : Error → List String
  | malformed cause => [cause.message]
  | unreadable cause | serialization cause | writing cause | flushing cause => [cause]
  | cannotLoad _ cause | cannotEmbed _ cause => cause.message :: cause.causes
  | argumentType .. | templateNotFound _ | missingBody _ | custom _ => []

end Error

end Mustache
