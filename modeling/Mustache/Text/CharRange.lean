/-!
This module contains sets of characters given as ranges of code points.
-/

namespace Mustache.Text

/--
A set of characters: the ranges of their code points, both ends included.
-/
abbrev CharRanges := List (Nat × Nat)

def CharRanges.contains (ranges : CharRanges) (c : Char) : Bool :=
  ranges.any fun (first, last) => first ≤ c.toNat && c.toNat ≤ last

end Mustache.Text
