import Mustache.Text.Blank

/-!
This module contains the splitting of a tag into words.
-/

namespace Mustache.Source

def isQuote (c : Char) : Bool :=
  c == '\x22' || c == '\x27'

/--
Splits the content of a tag at the blanks outside of quotes; `none` if a quote is left open. A quote may open
anywhere in a word, and only the same character closes it.
-/
def splitWords (cs : List Char) : Option (List (List Char)) :=
  go none [] cs
where
  go (quote : Option Char) (word : List Char) : List Char → Option (List (List Char))
    | [] => if quote.isSome then none else some (Text.words.finish word)
    | c :: cs =>
      match quote with
      | some q => go (if c = q then none else some q) (c :: word) cs
      | none =>
        if Text.isBlank c then
          (go none [] cs).map (Text.words.finish word ++ ·)
        else
          go (if isQuote c then some c else none) (c :: word) cs

def unquote? : List Char → Option (List Char)
  | [] => none
  | q :: cs => if isQuote q && cs.getLast? == some q then some cs.dropLast else none

end Mustache.Source
