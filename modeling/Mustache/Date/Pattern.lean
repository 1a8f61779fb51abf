import Mustache.Date.Format
import Mustache.Error

/-!
This module contains date patterns, in which letters stand for the parts of a date and quotes enclose text. A pattern
is turned into a date format.
-/

namespace Mustache

/--
A character of a pattern: a letter that stands for a part of a date, or one that stands for itself.
-/
inductive PatternChar where
  | letter (c : Char)
  | literal (c : Char)
deriving DecidableEq, Repr

inductive PatternPart where
  | run (letter : Char) (length : Nat)
  | literal (c : Char)
deriving DecidableEq, Repr

namespace DatePattern

/--
Takes the quotes out of a pattern: a pair of them is a quote, a single one begins or ends a quoted text. The second
result says that all quoted texts are closed.
-/
def readQuotes (quoted : Bool) : List Char → List PatternChar × Bool
  | [] => ([], !quoted)
  | '\x27' :: '\x27' :: cs =>
    let (rest, closed) := readQuotes quoted cs
    (.literal '\x27' :: rest, closed)
  | '\x27' :: cs => readQuotes (!quoted) cs
  | c :: cs =>
    let (rest, closed) := readQuotes quoted cs
    ((if !quoted && c.isAlpha then .letter c else .literal c) :: rest, closed)

def runs : List PatternChar → List PatternPart
  | [] => []
  | .literal c :: cs => .literal c :: runs cs
  | .letter c :: cs =>
    match runs cs with
    | .run d n :: parts => if c = d then .run c (n + 1) :: parts else .run c 1 :: .run d n :: parts
    | parts => .run c 1 :: parts

def field? (letter : Char) (count : Nat) : Option DateField :=
  match letter with
  | 'y' => some (if count = 2 then .yearOfCentury else .year)
  | 'M' => some (if count ≤ 2 then .month (count == 2) else .monthName (3 < count))
  | 'd' => some (.day (1 < count))
  | 'D' => some .dayOfYear
  | 'E' => some (.weekdayName (3 < count))
  | 'u' => some .weekdayNumber
  | 'a' => some .half
  | 'H' => some (.hour (1 < count))
  | 'h' => some (.hourOfHalf (1 < count))
  | 'm' => some (.minute (1 < count))
  | 's' => some (.second (1 < count))
  | 'S' => some .millisecond
  | 'z' => some .zoneName
  | 'Z' => some .zoneOffset
  | _ => none

def item : PatternPart → Except Char DateItem
  | .literal c => return .literal c
  | .run letter count =>
    match field? letter count with
    | some field => return .field field
    | none => throw letter

/--
The written date format for a pattern. A letter without a meaning comes before a quoted text that is not closed.
-/
def toFormat (pattern : String) : Except Error String :=
  let (chars, closed) := readQuotes false pattern.toList
  match (runs chars).mapM item with
  | .error letter =>
    throw (.argumentType pattern ("a date pattern ('" ++ String.singleton letter ++ "' is unknown)"))
  | .ok items =>
    if closed then
      return String.ofList (items.flatMap DateItem.code)
    else
      throw (.argumentType pattern "a date pattern with closed quotes")

end DatePattern

end Mustache
