import Mathlib.Data.List.Basic
import Mustache.Proofs.Exec
import Mustache.Proofs.Hosts

/-!
This module contains sections that name no helper. The main statement is that such a section renders like the one that
names the helper its value asks for, if what it looks up besides leaves no trace in the host.
-/

namespace Mustache

open RenderM

variable {σ : Type}

namespace BuiltIn

def sections : List BuiltIn :=
  [within, each, ifTruthy, ifFalsy]

theorem renderElements_arguments (inv : Invocation σ) (params : List Value) (hash : Dict Value)
    (count index : Nat) (elements : List Value) :
    renderElements { inv with params, hash } count index elements = renderElements inv count index elements := by
  induction elements generalizing index with
  | nil => rfl
  | cons element elements ih =>
    unfold renderElements
    rw [ih]
    rfl

theorem call_arguments {helper : BuiltIn} (h : helper ∈ sections) (value : Value) (inv : Invocation σ)
    (params : List Value) (hash : Dict Value) :
    helper.call value { inv with params, hash } = helper.call value inv := by
  cases helper with
  | each =>
    unfold call callEach
    simp only [renderElements_arguments]
    rfl
  | within => rfl
  | ifTruthy => rfl
  | ifFalsy => rfl
  | _ => exact absurd h (by decide)

end BuiltIn

/--
The helper that a section stands for as its value is, unless the value is called.
-/
def Host.sectionHelper? (host : Host σ) (inverted iterable : Bool) (value : Value) : Option BuiltIn :=
  if inverted then some .ifFalsy
  else if iterable then some .each
  else if value.bool?.isSome then some .ifTruthy
  else if (host.callable? value).isSome then none
  else some .within

theorem Host.sectionHelper?_mem {host : Host σ} {inverted iterable : Bool} {value : Value} {helper : BuiltIn}
    (h : host.sectionHelper? inverted iterable value = some helper) : helper ∈ BuiltIn.sections := by
  unfold sectionHelper? at h
  split at h
  . cases h
    decide
  . split at h
    . cases h
      decide
    . split at h
      . cases h
        decide
      . split at h
        . cases h
        . cases h
          decide

theorem Host.sectionHelper?_eq_none {host : Host σ} {inverted iterable : Bool} {value : Value}
    (h : host.sectionHelper? inverted iterable value = none) :
    inverted = false ∧ iterable = false ∧ value.bool?.isSome = false ∧
      ∃ callable, host.callable? value = some callable := by
  unfold sectionHelper? at h
  split at h
  . cases h
  next hinverted =>
    split at h
    . cases h
    next hiterable =>
      split at h
      . cases h
      next hbool =>
        split at h
        next hcallable =>
          exact ⟨by simpa using hinverted, by simpa using hiterable, by simpa using hbool,
            Option.isSome_iff_exists.1 hcallable⟩
        . cases h

/--
Looking up the arguments of a call leaves the host as it is. The positional ones are looked up in the inner scope, the
named ones in the outer one.
-/
def Call.SilentIn (call : Call) (inner outer : Scope σ) : Prop :=
  ∀ state, ((outer.evaluateHash call.hash).run ((inner.evaluateParams call.params).run state).2).2 = state

theorem Call.silentIn_bare {call : Call} (hparams : call.params = []) (hhash : call.hash = ∅) (inner outer : Scope σ) :
    call.SilentIn inner outer := by
  intro state
  rw [hparams, hhash]
  rfl

theorem Host.isIterable_silent {host : Host σ} {value : Value} (h : ∀ id, value ≠ .object id) (state : σ) :
    ((host.isIterable value).run state).2 = state := by
  cases value with
  | object id => exact absurd rfl (h id)
  | _ => rfl

def Scope.forArguments (scope : Scope σ) (helper : Option BuiltIn) (value : Value) : Scope σ :=
  if helper = some .within then scope.child value else scope

namespace Walk

variable {w : Walk σ} {scope : Scope σ} {helper : BuiltIn} {found : Option Value} {host later : σ} {iterable : Bool}
  {s : RenderState σ} {opening : Opening}

theorem callImplicit_eq (h : helper ∈ BuiltIn.sections) {call : Call} {inv : Invocation σ}
    (hsilent : call.SilentIn inv.scope scope) (value : Value) :
    callImplicit helper call scope value inv = helper.call value inv := by
  funext s
  change exec (callImplicit helper call scope value inv) s = exec (helper.call value inv) s
  obtain ⟨params, state, hparams⟩ :
      ∃ params state, (inv.scope.evaluateParams call.params).run s.host = (params, state) :=
    ⟨_, _, rfl⟩
  obtain ⟨hash, hhash⟩ : ∃ hash, (scope.evaluateHash call.hash).run state = (hash, s.host) := by
    have hstate := hsilent s.host
    rw [hparams] at hstate
    exact ⟨_, Prod.ext rfl hstate⟩
  unfold callImplicit
  rw [exec_bind (exec_ofHost hparams), exec_bind (exec_ofHost hhash), BuiltIn.call_arguments h]

theorem exec_callHelper_path {name : String} (hget : (scope.get name).run s.host = (found, host)) (helper : Helper σ)
    (callee : String) (body : Fragment) (inverse : Option Fragment) :
    exec (callHelper helper { name := callee, params := [.path name] } { w.invocation scope with body, inverse }) s =
      exec (helper.function (found.getD .null) { w.invocation scope with body, inverse }) { s with host } := by
  have hparams : (scope.evaluateParams [.path name]).run s.host = ([found.getD .null], host) := by
    unfold Scope.evaluateParams Scope.evaluate
    rw [StateT.run_bind, StateT.run_bind, hget]
    rfl
  unfold callHelper
  dsimp only [invocation]
  rw [exec_bind (exec_ofHost hparams)]
  rfl

theorem exec_implicitOutput (hget : (scope.get opening.call.name).run s.host = (found, host))
    (hiterable : (w.engine.host.isIterable (found.getD .null)).run host = (iterable, later))
    (hhelper : w.engine.host.sectionHelper? opening.inverted iterable (found.getD .null) = some helper)
    (hsilent : opening.call.SilentIn (scope.forArguments (some helper) (found.getD .null)) scope) (body : Fragment)
    (inverse : Option Fragment) :
    exec (w.implicitOutput scope opening body inverse) s =
      exec (helper.call (found.getD .null) { w.invocation scope with body, inverse })
        { s with host := if opening.inverted then host else later } := by
  have hmem := Host.sectionHelper?_mem hhelper
  -- both sides ask the same questions about the value in the same order
  unfold implicitOutput
  dsimp only
  rw [exec_bind (exec_ofHost hget)]
  unfold Host.sectionHelper? at hhelper
  split at hhelper
  next hinverted =>
    cases hhelper
    rw [if_pos hinverted, if_pos hinverted, callImplicit_eq hmem]
    exact hsilent
  next hinverted =>
    rw [if_neg hinverted, if_neg hinverted, exec_bind (exec_ofHost hiterable)]
    split at hhelper
    next hyes =>
      cases hhelper
      rw [if_pos hyes, callImplicit_eq hmem]
      exact hsilent
    next hno =>
      rw [if_neg hno]
      split at hhelper
      next hbool =>
        cases hhelper
        rw [if_pos hbool, callImplicit_eq hmem]
        exact hsilent
      next hbool =>
        rw [if_neg hbool]
        split at hhelper
        . cases hhelper
        next hcallable =>
          cases hhelper
          rw [Bool.not_eq_true, Option.isSome_eq_false_iff, Option.isNone_iff_eq_none] at hcallable
          rw [hcallable]
          dsimp only
          rw [callImplicit_eq hmem]
          . rfl
          . exact hsilent

theorem exec_implicitOutput_arguments (hget : (scope.get opening.call.name).run s.host = (found, host))
    (hiterable : (w.engine.host.isIterable (found.getD .null)).run host = (iterable, later)) {params : List Param}
    {hash : Dict Param} (body : Fragment) (inverse : Option Fragment) :
    let inner := scope.forArguments (w.engine.host.sectionHelper? opening.inverted iterable (found.getD .null))
      (found.getD .null)
    let other : Call := { opening.call with params, hash }
    opening.call.SilentIn inner scope → other.SilentIn inner scope →
      exec (w.implicitOutput scope { opening with call := other } body inverse) s =
        exec (w.implicitOutput scope opening body inverse) s := by
  intro inner other hsilent hother
  cases hhelper : w.engine.host.sectionHelper? opening.inverted iterable (found.getD .null) with
  | some helper =>
    rw [show inner = _ from congrArg (scope.forArguments · _) hhelper] at hsilent hother
    rw [exec_implicitOutput hget hiterable hhelper hsilent]
    exact @exec_implicitOutput _ w scope helper found host later iterable s { opening with call := other }
      hget hiterable hhelper hother body inverse
  | none =>
    rw [show inner = _ from congrArg (scope.forArguments · _) hhelper] at hsilent hother
    obtain ⟨hinverted, rfl, hbool, callable, hcallable⟩ := Host.sectionHelper?_eq_none hhelper
    unfold implicitOutput
    dsimp only
    rw [exec_bind (exec_ofHost hget), exec_bind (exec_ofHost hget)]
    simp only [hinverted, Bool.false_eq_true, ↓reduceIte]
    rw [exec_bind (exec_ofHost hiterable), exec_bind (exec_ofHost hiterable)]
    simp only [Bool.false_eq_true, ↓reduceIte, hbool, hcallable]
    congr 2
    funext fragment
    rw [callImplicit_eq (by decide), callImplicit_eq (by decide)]
    . exact hsilent
    . exact hother

theorem renderBlock_helper {opening : Opening} {helper : Helper σ}
    (h : w.engine.helpers.get? opening.call.name = some helper) (body : Fragment) (inverse : Option Fragment) :
    w.renderBlock scope opening (some body) inverse =
      callHelper helper opening.call { w.invocation scope with body, inverse } >>= writeOutput false := by
  unfold renderBlock
  rw [h]

theorem renderBlock_implicit {opening : Opening} (h : w.engine.helpers.get? opening.call.name = none)
    (body : Fragment) (inverse : Option Fragment) :
    w.renderBlock scope opening (some body) inverse =
      w.implicitOutput scope opening body inverse >>= writeOutput false := by
  unfold renderBlock
  rw [h]

theorem exec_renderBlock_explicit (hname : w.engine.helpers.get? opening.call.name = none)
    (hbuiltin : w.engine.helpers.get? helper.name = some (.builtIn helper))
    (hget : (scope.get opening.call.name).run s.host = (found, host))
    (hiterable : (w.engine.host.isIterable (found.getD .null)).run host = (iterable, later))
    (hhelper : w.engine.host.sectionHelper? opening.inverted iterable (found.getD .null) = some helper)
    (hsilent : opening.call.SilentIn (scope.forArguments (some helper) (found.getD .null)) scope)
    (hasked : opening.inverted = false → later = host) (inverted : Bool) (d : Delimiters) (body : Fragment)
    (inverse : Option Fragment) :
    exec (w.renderBlock scope opening (some body) inverse) s =
      exec (w.renderBlock scope ⟨{ name := helper.name, params := [.path opening.call.name] }, inverted, d⟩ (some body)
        inverse) s := by
  have hstate : (if opening.inverted then host else later) = host := by
    split
    . rfl
    next hinverted => exact hasked (by simpa using hinverted)
  rw [renderBlock_implicit hname, renderBlock_helper hbuiltin]
  apply exec_bind_congr
  rw [exec_implicitOutput hget hiterable hhelper hsilent, hstate, exec_callHelper_path hget]
  rfl

end Walk

namespace BuiltIn

theorem capture_nothing : (capture (pure ()) : RenderM σ String) = pure "" := rfl

theorem callUnless_eq_callIf {inv : Invocation σ} (hnothing : inv.renderer [] inv.scope = pure ()) (value : Value)
    (body : Fragment) (inverse : Option Fragment) :
    callUnless value { inv with body, inverse } =
      callIf value { inv with body := inverse.getD [], inverse := some body } := by
  have hinverse : Invocation.renderInverse { inv with body, inverse } =
      Invocation.renderBody { inv with body := inverse.getD [], inverse := some body } := by
    cases inverse with
    | some inverse => rfl
    | none =>
      change pure "" = capture (inv.renderer [] inv.scope)
      rw [hnothing, capture_nothing]
  unfold callUnless callIf
  rw [hinverse]
  rfl

end BuiltIn

theorem Walk.callHelper_unless {w : Walk σ} {scope : Scope σ} (hnothing : w.renderer [] scope = pure ())
    (params : List Param) (hash : Dict Param) (body : Fragment) (inverse : Option Fragment) :
    callHelper (.builtIn .ifFalsy) { name := "unless", params, hash } { w.invocation scope with body, inverse } =
      callHelper (.builtIn .ifTruthy) { name := "if", params, hash }
        { w.invocation scope with body := inverse.getD [], inverse := some body } := by
  have hcall (value : Value) (params : List Value) (hash : Dict Value) :
      BuiltIn.call .ifFalsy value { w.invocation scope with body, inverse, params, hash } =
        BuiltIn.call .ifTruthy value
          { w.invocation scope with body := inverse.getD [], inverse := some body, params, hash } := by
    unfold BuiltIn.call
    dsimp only
    congr 1
    exact @BuiltIn.callUnless_eq_callIf _ { w.invocation scope with params, hash } hnothing value body inverse
  unfold callHelper
  dsimp only
  congr 1
  funext values
  congr 1
  funext hash
  exact hcall ..

namespace Engine

variable {engine : Engine σ}

theorem renderer_block (depth : Nat) (scope : Scope σ) (opening : Opening) (body inverse : Option Fragment) :
    engine.renderer (depth + 1) [.block opening body inverse] scope =
      Walk.renderBlock ⟨engine, engine.renderer depth⟩ scope opening body inverse := by
  simp [renderer, Walk.renderNodes, Walk.renderNode]

theorem standard_helpers (host : Host σ) (calendar : Calendar) : ∀ helper ∈ BuiltIn.sections,
    (standard host calendar).helpers.get? helper.name = some (.builtIn helper) := by
  simp only [BuiltIn.sections, List.forall_mem_cons]
  exact ⟨by rfl, by rfl, by rfl, by rfl, by simp⟩

end Engine

end Mustache
