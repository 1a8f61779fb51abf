import Mustache.Value.Basic
import Mustache.Number.Notation
import Mustache.Text.Quoted

/-!
This module contains the two texts of a value: the one a template writes, and the one that shows its shape.
-/

namespace Mustache.Value

mutual

/--
What a template writes for a value. The text of an object is up to the host.
-/
def text (objectText : Nat → String) : Value → String
  | null | lambda _ => ""
  | bool b => if b then "true" else "false"
  | int n => n.toInt.repr
  | float x => Number.plainStyle.write x
  | string s => s
  | date t => t.text
  | array items => Text.bracketed (itemTexts objectText items)
  | map entries => Text.braced (entryTexts objectText entries)
  | object id => objectText id

def itemTexts (objectText : Nat → String) : List Value → List String
  | [] => []
  | item :: items => item.text objectText :: itemTexts objectText items

def entryTexts (objectText : Nat → String) : List (String × Value) → List String
  | [] => []
  | (key, value) :: entries => (key ++ "=" ++ value.text objectText) :: entryTexts objectText entries

end

mutual

def debug (objectDebug : Nat → String) : Value → String
  | null => "Null"
  | lambda _ => "Lambda"
  | bool b => if b then "Bool(true)" else "Bool(false)"
  | int n => "Int(" ++ n.toInt.repr ++ ")"
  | float x => "Float(" ++ Number.exactStyle.write x ++ ")"
  | string s => "String(" ++ Text.quoted s ++ ")"
  | date t => "Date(" ++ t.debug ++ ")"
  | array items => Text.bracketed (itemDebugs objectDebug items)
  | map entries => Text.braced (entryDebugs objectDebug entries)
  | object id => "Object(" ++ objectDebug id ++ ")"

def itemDebugs (objectDebug : Nat → String) : List Value → List String
  | [] => []
  | item :: items => item.debug objectDebug :: itemDebugs objectDebug items

def entryDebugs (objectDebug : Nat → String) : List (String × Value) → List String
  | [] => []
  | (key, value) :: entries =>
    (Text.quoted key ++ ": " ++ value.debug objectDebug) :: entryDebugs objectDebug entries

end

end Mustache.Value
