import Mustache.Source.Builder

/-!
This module contains the reading of the source of a template.
-/

namespace Mustache

open Source

/--
The tree of a sequence of tokens, which ended early if there is a `fault`. What is wrong with the tokens before
the fault comes first.
-/
def parseTokens (tokens : List Token) (fault : Option SyntaxError := none) : Except SyntaxError Fragment := do
  let builder ← tokens.foldlM Builder.add {}
  match fault with
  | some fault => throw fault
  | none => builder.finish

def parse (source : String) (d : Delimiters := .standard) : Except SyntaxError Fragment :=
  if d.isProper then
    let (pieces, fault) := (Scanner.start source.toList d).pieces
    parseTokens (pieces.filterMap Piece.token?) fault
  else
    throw (.malformed .first .emptyDelimiters)

end Mustache
