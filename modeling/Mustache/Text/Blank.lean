/-!
This module contains the blanks of a template: which characters they are, how a text is trimmed of
them and how it is cut into words at them.
-/

namespace Mustache.Text

/--
The characters with the Unicode property White_Space.
-/
def isBlank (c : Char) : Bool :=
  let n := c.toNat
  (9 ≤ n && n ≤ 13) || n == 0x20 || n == 0x85 || n == 0xA0 || n == 0x1680
    || (0x2000 ≤ n && n ≤ 0x200A) || n == 0x2028 || n == 0x2029 || n == 0x202F || n == 0x205F
    || n == 0x3000

def trimStart (cs : List Char) : List Char :=
  cs.dropWhile isBlank

def trimEnd (cs : List Char) : List Char :=
  (cs.reverse.dropWhile isBlank).reverse

def trim (cs : List Char) : List Char :=
  trimEnd (trimStart cs)

/--
The longest runs of characters that are not blank, in order.
-/
def words (cs : List Char) : List (List Char) :=
  go [] cs
where
  go (word : List Char) : List Char → List (List Char)
    | [] => finish word
    | c :: cs => if isBlank c then finish word ++ go [] cs else go (c :: word) cs
  finish (word : List Char) : List (List Char) :=
    if word.isEmpty then [] else [word.reverse]

end Mustache.Text
