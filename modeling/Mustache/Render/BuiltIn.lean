import Mustache.Date.Write
import Mustache.Render.Helper

/-!
This module contains what the helpers do that come with every engine.
-/

namespace Mustache.BuiltIn

open RenderM

variable {σ : Type}

def expectString (host : Host σ) : Value → RenderM σ String
  | .string s => return s
  | .null => fail (.argumentType "null" "string")
  | value => fail (.argumentType (host.text value) "string")

def callWithin (value : Value) (inv : Invocation σ) : RenderM σ String :=
  if inv.inPlace then inv.renderBody else inv.renderBodyWith value

def elementLocals (index count : Nat) : Dict Value :=
  Dict.ofList [
    ("@index", .ofNat index), ("@first", .bool (index == 0)), ("@last", .bool (index == count - 1))]

def renderElements (inv : Invocation σ) (count : Nat) : Nat → List Value → RenderM σ String
  | _, [] => return ""
  | index, element :: elements => do
    let text ← inv.renderBodyWith element (elementLocals index count)
    return text ++ (← renderElements inv count (index + 1) elements)

/--
Renders the body once for each element, and the inverse if there is none. A value that is not like a sequence is its
own only element.
-/
def callEach (value : Value) (inv : Invocation σ) : RenderM σ String := do
  if ← ofHost (inv.settings.host.isFalsy value) then
    inv.renderInverse
  else
    match ← ofHost (inv.settings.host.elements? value) with
    | some elements => renderElements inv elements.length 0 elements
    | none => inv.renderBodyWith value

def callIf (value : Value) (inv : Invocation σ) : RenderM σ String := do
  if ← ofHost (inv.settings.host.isFalsy value) then inv.renderInverse else inv.renderBody

def callUnless (value : Value) (inv : Invocation σ) : RenderM σ String := do
  if ← ofHost (inv.settings.host.isFalsy value) then inv.renderBody else inv.renderInverse

/--
What a block shows: the fragment that is registered under its path, else the template that can be loaded from it,
which is then registered, else the body.
-/
def blockFragment (path : String) (inv : Invocation σ) : RenderM σ Fragment := do
  match ← partial? path with
  | some fragment => return fragment
  | none =>
    match ← inv.settings.templateAt path with
    | .ok template =>
      register path template.fragment
      return template.fragment
    | .error e =>
      RenderM.log (.defaultContent path e)
      return inv.body

def callBlock (value : Value) (inv : Invocation σ) : RenderM σ String := do
  let path ← expectString inv.settings.host value
  inv.render (← blockFragment path inv)

def callRegisterBody (value : Value) (inv : Invocation σ) : RenderM σ Unit := do
  register (← expectString inv.settings.host value) inv.body

def embeddedId (path : String) : String :=
  path.map (fun c => if c == '/' || c == '.' then '-' else c) ++ "-hbs"

def callEmbed (value : Value) (inv : Invocation σ) : RenderM σ String := do
  let host := inv.settings.host
  let path ← expectString host value
  let id :=
    match inv.given? 0 with
    | none => embeddedId path
    | some id => host.text id
  match ← inv.settings.templateAt path with
  | .ok template =>
    return "<script id=\x22" ++ id ++ "\x22 type=\x22text/x-handlebars\x22>\n" ++ template.source ++ "\n</script>"
  | .error e => fail (.cannotEmbed path e)

def calendarName (calendar : Calendar) (locale : Locale) : RenderM σ String := do
  match locale.calendarNames.find? calendar.knows with
  | some name => return name
  | none =>
    RenderM.log (.noDateData locale)
    return "POSIX"

/--
Writes a date in a style or a pattern, in a locale. Anything but a date is written as nothing.
-/
def callDateFormat (value : Value) (inv : Invocation σ) : RenderM σ (Option String) := do
  let some date := value.date? | return none
  let host := inv.settings.host
  let calendar := inv.settings.calendar
  let pattern :=
    match inv.given? 0 with
    | none => "medium"
    | some pattern => host.text pattern
  let locale ←
    match inv.given? 1 with
    | none => pure inv.settings.defaultLocale
    | some locale => ofExcept (Locale.parse (host.text locale))
  let format ← ofExcept (locale.dateFormat pattern)
  let name ← calendarName calendar locale
  return some (← ofExcept (calendar.write name format date))

def call (helper : BuiltIn) : HelperFunction σ := fun value inv =>
  match helper with
  | within => return some (.text (← callWithin value inv))
  | each => return some (.text (← callEach value inv))
  | ifTruthy => return some (.text (← callIf value inv))
  | ifFalsy => return some (.text (← callUnless value inv))
  | block => return some (.text (← callBlock value inv))
  | registerBody => do
    callRegisterBody value inv
    return none
  | embed => return some (.safe (← callEmbed value inv))
  | dateFormat => return (← callDateFormat value inv).map .text
  | log => do
    RenderM.log (.value (inv.settings.host.text value))
    return none

end Mustache.BuiltIn

namespace Mustache.Helper

def function {σ : Type} : Helper σ → HelperFunction σ
  | builtIn helper => helper.call
  | custom function => function

end Mustache.Helper
