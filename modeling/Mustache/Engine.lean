import Mustache.Render.BuiltIn

/-!
This module contains engines, which know all that templates are compiled and rendered with.
-/

namespace Mustache

structure Engine (σ : Type) extends Settings σ where
  helpers : Helpers σ

/--
What an engine is asked to be. Resolvers given here come before those for maps, sequences and objects.
-/
structure EngineOptions (σ : Type) where
  host : Host σ
  helpers : Helpers σ := .builtIns
  resolvers : List (Resolver σ) := []
  loader : Loader Id := .ofMap {}
  calendar : Calendar
  delimiters : Delimiters := .standard
  defaultLocale : Option String := none
  platformLocale : Locale := .enUS

namespace Engine

variable {σ : Type}

/--
The engine with the given options. They have to have proper delimiters and the name of a locale.
-/
def build (options : EngineOptions σ) : Except Error (Engine σ) := do
  let d := options.delimiters
  unless d.isProper do
    throw (.argumentType (Text.quoted d.start ++ " " ++ Text.quoted d.stop) "non-empty delimiters")
  let defaultLocale ←
    match options.defaultLocale with
    | some name => Locale.parse name
    | none => pure options.platformLocale
  return {
    host := options.host
    helpers := options.helpers
    resolvers := options.resolvers ++ Resolver.builtIn options.host
    loader := options.loader
    calendar := options.calendar
    delimiters := d
    defaultLocale
  }

def standard (host : Host σ) (calendar : Calendar) : Engine σ where
  host
  helpers := .builtIns
  resolvers := Resolver.builtIn host
  loader := .ofMap {}
  calendar
  delimiters := .standard
  defaultLocale := .enUS

theorem build_standard (host : Host σ) (calendar : Calendar) :
    build { host, calendar } = .ok (standard host calendar) := rfl

variable (engine : Engine σ)

def compile (source : String) : Except Error Template :=
  Template.compile engine.delimiters source

def debug : String :=
  Text.record "Engine" [
    ("helpers", engine.helpers.debug),
    ("resolvers", engine.resolvers.length.repr),
    ("start_delimiter", Text.quoted engine.delimiters.start),
    ("end_delimiter", Text.quoted engine.delimiters.stop),
    ("default_locale", Text.quoted engine.defaultLocale.text)]

end Engine

end Mustache
