import Mustache.Text.Visible

/-!
This module contains the quoted form of a text, for showing it to a developer, and the forms of lists,
dictionaries and options of such texts.
-/

namespace Mustache.Text

def hexadecimal (n : Nat) : List Char :=
  Nat.toDigits 16 n

/--
A character inside a quoted text: a short escape where there is one, the code point for a character that
would not be seen, the character itself otherwise. A single quote needs no escape.
-/
def quotedChar (c : Char) : List Char :=
  match c with
  | '\x00' => ['\\', '0']
  | '\t' => ['\\', 't']
  | '\r' => ['\\', 'r']
  | '\n' => ['\\', 'n']
  | '\\' => ['\\', '\\']
  | '\x22' => ['\\', '\x22']
  | c => if isVisible c then [c] else ['\\', 'u', '\x7b'] ++ hexadecimal c.toNat ++ ['\x7d']

def quoted (s : String) : String :=
  String.ofList ('\x22' :: s.toList.flatMap quotedChar ++ ['\x22'])

def quotedOption : Option String → String
  | none => "None"
  | some s => "Some(" ++ quoted s ++ ")"

def braced (entries : List String) : String :=
  "\x7b" ++ ", ".intercalate entries ++ "\x7d"

def bracketed (entries : List String) : String :=
  "[" ++ ", ".intercalate entries ++ "]"

def record (name : String) (fields : List (String × String)) : String :=
  name ++ " \x7b " ++ ", ".intercalate (fields.map fun (field, shown) => field ++ ": " ++ shown) ++ " \x7d"

end Mustache.Text
