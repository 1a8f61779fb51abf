import Mustache.Error

/-!
This module contains the names of languages and countries.
-/

namespace Mustache

/--
A language, perhaps as it is used in a country, and perhaps in a variant.
-/
structure Locale where
  language : String
  country : Option String := none
  variant : Option String := none
deriving DecidableEq, Repr

namespace Locale

def enUS : Locale := ⟨"en", some "US", none⟩

/--
Reads `ll`, `ll_CC`, `ll_CC_variant` or `ll__variant` behind the check that all is ASCII. Without a country the
variant has one character or more than two.
-/
def ofChars? : List Char → Option Locale
  | l :: m :: rest =>
    if l.isLower && m.isLower then
      let language := String.ofList [l, m]
      match rest with
      | [] => some { language }
      | '_' :: '_' :: variant =>
        if variant.length = 1 || 3 ≤ variant.length then
          some { language, variant := some (String.ofList variant) }
        else
          none
      | '_' :: c :: d :: rest =>
        if c.isUpper && d.isUpper then
          let country := some (String.ofList [c, d])
          match rest with
          | [] => some { language, country }
          | '_' :: variant =>
            if variant.isEmpty then none
            else some { language, country, variant := some (String.ofList variant) }
          | _ => none
        else
          none
      | _ => none
    else
      none
  | _ => none

def parse (text : String) : Except Error Locale :=
  match if text.toList.all (·.toNat < 128) then ofChars? text.toList else none with
  | some locale => return locale
  | none => throw (.argumentType text "locale of the form ll, ll_CC or ll_CC_variant")

def text (l : Locale) : String :=
  match l.country, l.variant with
  | some country, some variant => l.language ++ "_" ++ country ++ "_" ++ variant
  | some country, none => l.language ++ "_" ++ country
  | none, some variant => l.language ++ "__" ++ variant
  | none, none => l.language

/--
The locale that is set up in an environment: the first that can be read of three variables, without its encoding
and modifier.
-/
def ofEnvironment (value? : String → Option String) : Locale :=
  let named (name : String) : Option Locale :=
    (value? name).bind fun text =>
      (parse (String.ofList (text.toList.takeWhile fun c => c != '.' && c != '@'))).toOption
  (["LC_ALL", "LC_TIME", "LANG"].findSome? named).getD enUS

end Locale

end Mustache
