import Mustache.Dict
import Mustache.Log
import Mustache.Render.Sink
import Mustache.Tree.Basic

/-!
This module contains what a render reads and changes: the state of the host, the fragments that are registered, what
is told to a developer, and the text so far.
-/

namespace Mustache

structure RenderState (σ : Type) where
  host : σ
  partials : Dict Fragment := ∅
  log : List LogRecord := []
  sink : Sink := {}

/--
Why a render did not end well. That templates are nested too deep is not an error of the templates.
-/
inductive Failure where
  | error (error : Error)
  | tooDeep
deriving DecidableEq, Repr

/--
A part of a render. The state is kept when it fails.
-/
abbrev RenderM (σ : Type) := ExceptT Failure (StateM (RenderState σ))

namespace RenderM

variable {σ α : Type}

def fail (e : Error) : RenderM σ α :=
  throw (.error e)

def ofExcept : Except Error α → RenderM σ α
  | .ok a => return a
  | .error e => fail e

def ofHost (x : StateM σ α) : RenderM σ α :=
  modifyGet fun s =>
    let (a, host) := x.run s.host
    (a, { s with host })

def ofCall (x : ExceptT Error (StateM σ) α) : RenderM σ α := do
  ofExcept (← ofHost x.run)

def log (r : LogRecord) : RenderM σ Unit :=
  modify fun s => { s with log := s.log ++ [r] }

def ofSink (x : Sink → Except Error Unit × Sink) : RenderM σ Unit := do
  let result ← modifyGet fun s =>
    let (result, sink) := x s.sink
    (result, { s with sink })
  ofExcept result

def write (text : String) : RenderM σ Unit :=
  ofSink (·.write text)

def flush : RenderM σ Unit :=
  ofSink Sink.flush

def partial? (name : String) : RenderM σ (Option Fragment) :=
  return (← get).partials.get? name

def register (name : String) (fragment : Fragment) : RenderM σ Unit := do
  log (.registering name)
  modify fun s => { s with partials := s.partials.insert name fragment }

/--
The text that a part of a render writes. Nothing goes to the sink of the render, whether the part ends well or not.
-/
def capture (x : RenderM σ Unit) : RenderM σ String :=
  ExceptT.mk fun s =>
    match x.run.run { s with sink := {} } with
    | (.ok (), t) => (.ok t.sink.written, { t with sink := s.sink })
    | (.error e, t) => (.error e, { t with sink := s.sink })

/--
A render of its own: no fragments are registered when it begins, and those that it registers are gone when it ends.
-/
def isolated (x : RenderM σ α) : RenderM σ α :=
  ExceptT.mk fun s =>
    let (result, t) := x.run.run { s with partials := ∅ }
    (result, { t with partials := s.partials })

end RenderM

end Mustache
