import Mustache.Date.Calendar
import Mustache.Loader.Basic
import Mustache.Locale
import Mustache.Render.Monad
import Mustache.Scope.Resolver
import Mustache.Template

/-!
This module contains helpers, the functions that are called by name in a template, and what they are given.
-/

namespace Mustache

/--
What templates are compiled and rendered with, apart from the helpers.
-/
structure Settings (σ : Type) where
  host : Host σ
  resolvers : List (Resolver σ)
  loader : Loader Id
  calendar : Calendar
  delimiters : Delimiters
  defaultLocale : Locale

namespace Settings

variable {σ : Type} (settings : Settings σ)

def loadTemplate (path : String) : Except Error Template := do
  Template.compile settings.delimiters (← (settings.loader.load path).run) (some path)

def templateAt (path : String) : RenderM σ (Except Error Template) := do
  match settings.loadTemplate path with
  | .ok template =>
    RenderM.log (.compiled path)
    return .ok template
  | .error e => return .error e

def compilePath (path : String) : RenderM σ Template := do
  RenderM.ofExcept (← settings.templateAt path)

def rootScope (model : Value) : Scope σ :=
  { frame := ⟨model, ∅⟩, resolvers := settings.resolvers }

end Settings

abbrev Renderer (σ : Type) := Fragment → Scope σ → RenderM σ Unit

inductive Output where
  | text (text : String)
  | safe (text : String)
deriving DecidableEq, Repr

def Output.string : Output → String
  | text s | safe s => s

/--
What a helper is given besides its first argument. A tag that is no section has an empty body.
-/
structure Invocation (σ : Type) where
  settings : Settings σ
  renderer : Renderer σ
  scope : Scope σ
  body : Fragment := []
  inverse : Option Fragment := none
  params : List Value := []
  hash : Dict Value := ∅
  /-- The scope already holds the first argument. -/
  inPlace : Bool := false

namespace Invocation

variable {σ : Type} (inv : Invocation σ)

def renderIn (fragment : Fragment) (scope : Scope σ) : RenderM σ String :=
  RenderM.capture (inv.renderer fragment scope)

def render (fragment : Fragment) : RenderM σ String :=
  inv.renderIn fragment inv.scope

def renderBody : RenderM σ String :=
  inv.render inv.body

def renderBodyWith (value : Value) (locals : Dict Value := ∅) : RenderM σ String :=
  inv.renderIn inv.body (inv.scope.child value locals)

def renderInverse : RenderM σ String :=
  match inv.inverse with
  | some inverse => inv.render inverse
  | none => return ""

def given? (index : Nat) : Option Value :=
  inv.params[index]?.filter fun value => !value.isNull

def paramString? (index : Nat) : Option String :=
  inv.params[index]?.bind Value.string?

/--
The text of another source for a model, in a render of its own.
-/
def renderSource (source : String) (model : Value) : RenderM σ String := do
  let template ← RenderM.ofExcept (Template.compile inv.settings.delimiters source)
  RenderM.isolated (inv.renderIn template.fragment (inv.settings.rootScope model))

def debug : String :=
  let objectDebug := inv.settings.host.objectDebug
  Text.record "Options" [
    ("body", Text.quoted (Fragment.text inv.body)),
    ("inverse", Text.quotedOption (inv.inverse.map Fragment.text)),
    ("params", Text.bracketed (Value.itemDebugs objectDebug inv.params)),
    ("hash", Text.braced (Value.entryDebugs objectDebug inv.hash.entries)),
    ("scope", inv.scope.debug objectDebug)]

end Invocation

/--
What a helper does with its first argument, or with the value of the scope if it has none.
-/
abbrev HelperFunction (σ : Type) := Value → Invocation σ → RenderM σ (Option Output)

inductive BuiltIn where
  | within
  | each
  | ifTruthy
  | ifFalsy
  | block
  | registerBody
  | embed
  | dateFormat
  | log
deriving DecidableEq, Repr

namespace BuiltIn

def all : List BuiltIn :=
  [within, each, ifTruthy, ifFalsy, block, registerBody, embed, dateFormat, log]

def name : BuiltIn → String
  | within => "with"
  | each => "each"
  | ifTruthy => "if"
  | ifFalsy => "unless"
  | block => "block"
  | registerBody => "partial"
  | embed => "embedded"
  | dateFormat => "dateFormat"
  | log => "log"

end BuiltIn

inductive Helper (σ : Type) where
  | builtIn (helper : BuiltIn)
  | custom (function : HelperFunction σ)

abbrev Helpers (σ : Type) := Dict (Helper σ)

def Helpers.builtIns {σ : Type} : Helpers σ :=
  Dict.ofList (BuiltIn.all.map fun helper => (helper.name, .builtIn helper))

def Helpers.debug {σ : Type} (helpers : Helpers σ) : String :=
  Text.braced (helpers.keys.map Text.quoted)

end Mustache
