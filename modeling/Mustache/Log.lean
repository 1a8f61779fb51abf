import Mustache.Error
import Mustache.Locale
import Mustache.Text.Quoted

/-!
This module contains what is told to a developer while templates are rendered.
-/

namespace Mustache

inductive LogLevel where
  | info
  | debug
  | trace
deriving DecidableEq, Repr

def LogLevel.rank : LogLevel → Nat
  | .info => 0
  | .debug => 1
  | .trace => 2

def LogLevel.name : LogLevel → String
  | .info => "INFO"
  | .debug => "DEBUG"
  | .trace => "TRACE"

inductive LogRecord where
  | value (text : String)
  | defaultContent (path : String) (cause : Error)
  | notFound (name : String)
  | compiled (path : String)
  | registering (name : String)
  | lambdaOutput (source : String)
  | noDateData (locale : Locale)
deriving DecidableEq, Repr

namespace LogRecord

def level : LogRecord → LogLevel
  | value _ => .info
  | defaultContent .. => .debug
  | notFound _ | compiled _ | registering _ | lambdaOutput _ | noDateData _ => .trace

def message : LogRecord → String
  | value text => "Context " ++ text
  | defaultContent path cause => "block '" ++ path ++ "' uses its default content: " ++ cause.message
  | notFound name => "'" ++ name ++ "' not found"
  | compiled path => "compiled template '" ++ path ++ "'"
  | registering name => "registering partial '" ++ name ++ "'"
  | lambdaOutput source => "compiling lambda output: " ++ Text.quoted source
  | noDateData locale => "no date data for locale " ++ locale.text ++ ", using POSIX"

def text (r : LogRecord) : String :=
  r.level.name ++ " " ++ r.message

end LogRecord

end Mustache
