import Mustache.Source.Position

/-!
This module contains what can be wrong with the source of a template, and with a section that is put together
by hand.
-/

namespace Mustache

inductive Fault where
  | unclosedTag
  | invalidDelimiterChange
  | emptyDelimiters
  | unexpectedClosing (name : String)
  | mismatchedClosing (opened closed : String)
  | unclosedSection (name : String)
  | missingPath
  | strayElse
  | repeatedElse (name : String)
  | unterminatedString
  | emptyTag
  | literalName (word : String)
  | duplicateArgument (key : String)
deriving DecidableEq, Repr

def Fault.message : Fault → String
  | .unclosedTag => "unclosed tag"
  | .invalidDelimiterChange => "invalid delimiter change"
  | .emptyDelimiters => "delimiters must not be empty"
  | .unexpectedClosing name => "unexpected closing tag '" ++ name ++ "'"
  | .mismatchedClosing opened closed => "section '" ++ opened ++ "' closed by '" ++ closed ++ "'"
  | .unclosedSection name => "unclosed section '" ++ name ++ "'"
  | .missingPath => "partial path is required"
  | .strayElse => "'else' outside of a section"
  | .repeatedElse name => "section '" ++ name ++ "' has more than one 'else'"
  | .unterminatedString => "unterminated string literal"
  | .emptyTag => "empty tag"
  | .literalName word => "expected a name, found " ++ word
  | .duplicateArgument key => "duplicate argument '" ++ key ++ "'"

inductive SyntaxError where
  | malformed (position : Position) (fault : Fault)
  | emptyName
  | bodyAlreadySet (name : String)
deriving DecidableEq, Repr

def SyntaxError.message : SyntaxError → String
  | .malformed position fault =>
    position.line.repr ++ ":" ++ position.column.repr ++ ": " ++ fault.message
  | .emptyName => "section name is required"
  | .bodyAlreadySet name => "body of section '" ++ name ++ "' is already set"

end Mustache
