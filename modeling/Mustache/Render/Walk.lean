import Mustache.Engine
import Mustache.Text.Html

/-!
This module contains the rendering of templates. Nodes are rendered in their order. Sections go to the helper of
their name or else, as their value is, to one of those that come with every engine.
-/

namespace Mustache

open RenderM

variable {σ : Type}

namespace Scope

def evaluate (scope : Scope σ) : Param → StateM σ Value
  | .path path => return (← scope.get path).getD .null
  | .str s => return .string s
  | .int n => return .int n
  | .float x => return .float x
  | .bool b => return .bool b
  | .null => return .null

def evaluateParams (scope : Scope σ) : List Param → StateM σ (List Value)
  | [] => return []
  | param :: params => do
    let value ← scope.evaluate param
    return value :: (← evaluateParams scope params)

def evaluateHash (scope : Scope σ) (hash : Dict Param) : StateM σ (Dict Value) := do
  return hash.withValues (← scope.evaluateParams (hash.entries.map (·.2)))

end Scope

def writeOutput (escapes : Bool) : Option Output → RenderM σ Unit
  | none => return ()
  | some (.text s) => write (if escapes then Text.escapeHtml s else s)
  | some (.safe s) => write s

/--
The fragment that stands for what a lambda gives back for a body: a text is a template with the delimiters `d`, any
other value stands for its text.
-/
def lambdaFragment (host : Host σ) (callable : Callable σ) (scope : Scope σ) (body : Fragment)
    (d : Delimiters) : RenderM σ Fragment := do
  match ← ofCall (callable scope (Fragment.textWith d body)) with
  | .string source =>
    RenderM.log (.lambdaOutput source)
    return (← ofExcept (Template.compile d source)).fragment
  | value => return [.literal (host.text value)]

/--
What an engine does with a node, given how it renders the fragments inside.
-/
structure Walk (σ : Type) where
  engine : Engine σ
  renderer : Renderer σ

namespace Walk

variable (w : Walk σ)

def invocation (scope : Scope σ) : Invocation σ :=
  { settings := w.engine.toSettings, renderer := w.renderer, scope }

/--
Calls a helper with the arguments in a tag. The first of them, or the value of the scope if there is none, is the
value it is called with.
-/
def callHelper (helper : Helper σ) (call : Call) (inv : Invocation σ) : RenderM σ (Option Output) := do
  let values ← ofHost (inv.scope.evaluateParams call.params)
  let hash ← ofHost (inv.scope.evaluateHash call.hash)
  let (value, params) :=
    match values with
    | [] => (inv.scope.data, [])
    | value :: params => (value, params)
  helper.function value { inv with params, hash }

def valueText (scope : Scope σ) (value : Value) : RenderM σ String := do
  match w.engine.host.callable? value with
  | some callable =>
    let fragment ← lambdaFragment w.engine.host callable scope [] w.engine.delimiters
    capture (w.renderer fragment scope)
  | none => return w.engine.host.text value

def renderVariable (scope : Scope σ) (call : Call) (escape : Escape) : RenderM σ Unit := do
  match w.engine.helpers.get? call.name with
  | some helper => writeOutput escape.escapes (← callHelper helper call (w.invocation scope))
  | none =>
    match ← ofHost (scope.get call.name) with
    | some value =>
      let text ← w.valueText scope value
      write (if escape.escapes then Text.escapeHtml text else text)
    | none => RenderM.log (.notFound call.name)

def renderInclusion (scope : Scope σ) (path : String) : RenderM σ Unit := do
  match ← partial? path with
  | some fragment => w.renderer fragment scope
  | none =>
    match ← w.engine.templateAt path with
    | .ok template => w.renderer template.fragment scope
    | .error e => fail (.cannotLoad path e)

/--
Calls a helper for a section that does not name one. The positional arguments are looked up where the body is
rendered, the named ones around the section.
-/
def callImplicit (helper : BuiltIn) (call : Call) (enclosing : Scope σ) (value : Value)
    (inv : Invocation σ) : RenderM σ (Option Output) := do
  let params ← ofHost (inv.scope.evaluateParams call.params)
  let hash ← ofHost (enclosing.evaluateHash call.hash)
  helper.call value { inv with params, hash }

/--
What a section gives that does not name a helper. The first that fits its value is taken.
-/
def implicitOutput (scope : Scope σ) (opening : Opening) (body : Fragment) (inverse : Option Fragment) :
    RenderM σ (Option Output) := do
  let call := opening.call
  let value := (← ofHost (scope.get call.name)).getD .null
  let inv := { w.invocation scope with body, inverse }
  if opening.inverted then
    callImplicit .ifFalsy call scope value inv
  else if ← ofHost (w.engine.host.isIterable value) then
    callImplicit .each call scope value inv
  else if value.bool?.isSome then
    callImplicit .ifTruthy call scope value inv
  else
    match w.engine.host.callable? value with
    | some callable =>
      let body ← lambdaFragment w.engine.host callable scope body opening.delimiters
      callImplicit .within call scope value { inv with body, inPlace := true }
    | none =>
      callImplicit .within call scope value { inv with scope := scope.child value, inPlace := true }

def renderBlock (scope : Scope σ) (opening : Opening) (body inverse : Option Fragment) : RenderM σ Unit := do
  match body with
  | none => fail (.missingBody opening.call.name)
  | some body =>
    match w.engine.helpers.get? opening.call.name with
    | some helper =>
      writeOutput false (← callHelper helper opening.call { w.invocation scope with body, inverse })
    | none => writeOutput false (← w.implicitOutput scope opening body inverse)

def renderNode (scope : Scope σ) : Node → RenderM σ Unit
  | .literal text => write text
  | .comment _ => return ()
  | .variable call escape => w.renderVariable scope call escape
  | .inclusion path => w.renderInclusion scope path
  | .block opening body inverse => w.renderBlock scope opening body inverse

def renderNodes (scope : Scope σ) : Fragment → RenderM σ Unit
  | [] => return ()
  | node :: nodes => do
    renderNode w scope node
    renderNodes scope nodes

end Walk

namespace Engine

variable (engine : Engine σ)

/--
Renders fragments that are nested at most `depth` deep in one another.
-/
def renderer : (depth : Nat) → Renderer σ
  | 0 => fun _ _ => throw .tooDeep
  | depth + 1 => fun fragment scope => { engine, renderer := renderer depth : Walk σ }.renderNodes scope fragment

def render (depth : Nat) (template : Template) (model : Value) : RenderM σ String :=
  isolated (capture (engine.renderer depth template.fragment (engine.rootScope model)))

def renderSource (depth : Nat) (source : String) (model : Value) : RenderM σ String := do
  engine.render depth (← ofExcept (engine.compile source)) model

/--
Renders a template for a model into a sink, which is finished if the render ends well.
-/
def apply (depth : Nat) (template : Template) (model : Value) (sink : Sink) :
    StateM (RenderState σ) (Except Failure Unit × Sink) := fun s =>
  let walk : RenderM σ Unit := do
    engine.renderer depth template.fragment (engine.rootScope model)
    flush
  let (result, t) := (isolated walk).run.run { s with sink }
  ((result, t.sink), { t with sink := s.sink })

end Engine

end Mustache
