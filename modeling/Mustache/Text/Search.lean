/-!
This module contains the ways a text is searched: for the first occurrence of a pattern, for a separating
character, and for a trailing piece.
-/

namespace Mustache.Text

/--
Cuts a text in front of the first occurrence of `pattern`. The second part is empty if there is none;
the empty pattern occurs nowhere, so a second part that is not empty starts with a pattern that is not.
-/
def breakOn (pattern : List Char) : List Char → List Char × List Char
  | [] => ([], [])
  | c :: cs =>
    if !pattern.isEmpty && pattern.isPrefixOf (c :: cs) then
      ([], c :: cs)
    else
      let (before, found) := breakOn pattern cs
      (c :: before, found)

theorem breakOn_append (pattern cs : List Char) :
    (breakOn pattern cs).1 ++ (breakOn pattern cs).2 = cs := by
  induction cs with
  | nil => rfl
  | cons c cs ih =>
    simp only [breakOn]
    split
    . rfl
    . simp [ih]

theorem breakOn_length (pattern cs : List Char) :
    (breakOn pattern cs).1.length + (breakOn pattern cs).2.length = cs.length := by
  rw [← List.length_append, breakOn_append]

theorem breakOn_found {pattern cs : List Char} (h : (breakOn pattern cs).2 ≠ []) :
    pattern ≠ [] ∧ pattern <+: (breakOn pattern cs).2 := by
  induction cs with
  | nil => simp [breakOn] at h
  | cons c cs ih =>
    simp only [breakOn] at h ⊢
    split
    next hp =>
      simp only [Bool.and_eq_true, Bool.not_eq_true', List.isEmpty_eq_false_iff,
        List.isPrefixOf_iff_prefix] at hp
      exact hp
    next hp =>
      rw [if_neg hp] at h
      exact ih h

def splitOnce (separator : Char) : List Char → Option (List Char × List Char)
  | [] => none
  | c :: cs =>
    if c = separator then
      some ([], cs)
    else
      (splitOnce separator cs).map fun (before, after) => (c :: before, after)

def splitAll (separator : Char) (cs : List Char) : List (List Char) :=
  go [] cs
where
  go (piece : List Char) : List Char → List (List Char)
    | [] => [piece.reverse]
    | c :: cs => if c = separator then piece.reverse :: go [] cs else go (c :: piece) cs

def dropStop? (stop s : String) : Option String :=
  (stop.toList.isSuffixOf? s.toList).map String.ofList

end Mustache.Text
