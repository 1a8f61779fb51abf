import Mustache.Proofs.Dict
import Mustache.Proofs.Exec
import Mustache.Render.Walk

/-!
This module contains the parts of a render that have nothing to do with the sink. The main statement is that helpers
are such parts: they render into texts of their own and give them back.
-/

namespace Mustache

open RenderM

variable {σ α β : Type}

namespace RenderM

/--
Neither looks at the sink nor writes to it.
-/
def Quiet (x : RenderM σ α) : Prop :=
  ∀ (s : RenderState σ) (sink : Sink), exec x { s with sink } = ((exec x s).1, { (exec x s).2 with sink })

theorem quiet_pure {a : α} : Quiet (pure a : RenderM σ α) :=
  fun _ _ => rfl

theorem quiet_throw {e : Failure} : Quiet (throw e : RenderM σ α) :=
  fun _ _ => rfl

theorem Quiet.bind {x : RenderM σ α} {f : α → RenderM σ β} (hx : Quiet x) (hf : ∀ a, Quiet (f a)) :
    Quiet (x >>= f) := by
  intro s sink
  have hs := hx s sink
  cases h : exec x s with
  | mk result t =>
    rw [h] at hs
    cases result with
    | error e => rw [exec_bind_error h, exec_bind_error hs]
    | ok a =>
      rw [exec_bind h, exec_bind hs]
      exact hf a t sink

theorem quiet_ofExcept {x : Except Error α} : Quiet (ofExcept x : RenderM σ α) := by
  cases x with
  | ok a => exact quiet_pure
  | error e => exact quiet_throw

theorem quiet_ofHost {x : StateM σ α} : Quiet (ofHost x) :=
  fun _ _ => rfl

theorem quiet_ofCall {x : ExceptT Error (StateM σ) α} : Quiet (ofCall x) :=
  quiet_ofHost.bind fun _ => quiet_ofExcept

theorem quiet_log {r : LogRecord} : Quiet (log r : RenderM σ Unit) :=
  fun _ _ => rfl

theorem quiet_partial? {name : String} : Quiet (partial? name : RenderM σ (Option Fragment)) :=
  fun _ _ => rfl

theorem quiet_register {name : String} {fragment : Fragment} : Quiet (register name fragment : RenderM σ Unit) :=
  fun _ _ => rfl

theorem quiet_capture {x : RenderM σ Unit} : Quiet (capture x) := by
  intro s sink
  simp only [exec_capture_eq]
  cases exec x { s with sink := {} } with
  | mk result t => cases result <;> rfl

end RenderM

namespace BuiltIn

variable {inv : Invocation σ}

theorem templateAt_quiet {settings : Settings σ} {path : String} : Quiet (settings.templateAt path) := by
  unfold Settings.templateAt
  split
  . exact quiet_log.bind fun _ => quiet_pure
  . exact quiet_pure

theorem renderIn_quiet {fragment : Fragment} {scope : Scope σ} : Quiet (inv.renderIn fragment scope) :=
  quiet_capture

theorem renderInverse_quiet : Quiet inv.renderInverse := by
  unfold Invocation.renderInverse
  split
  . exact renderIn_quiet
  . exact quiet_pure

theorem expectString_quiet {host : Host σ} {value : Value} : Quiet (expectString host value) := by
  unfold expectString
  split
  . exact quiet_pure
  . exact quiet_throw
  . exact quiet_throw

theorem renderElements_quiet {count index : Nat} {elements : List Value} :
    Quiet (renderElements inv count index elements) := by
  induction elements generalizing index with
  | nil => exact quiet_pure
  | cons element elements ih =>
    exact renderIn_quiet.bind fun _ => ih.bind fun _ => quiet_pure

theorem callWithin_quiet {value : Value} : Quiet (callWithin value inv) := by
  unfold callWithin
  split
  . exact renderIn_quiet
  . exact renderIn_quiet

theorem callEach_quiet {value : Value} : Quiet (callEach value inv) := by
  apply quiet_ofHost.bind
  intro falsy
  split
  . exact renderInverse_quiet
  . apply quiet_ofHost.bind
    intro found
    cases found with
    | some elements => exact renderElements_quiet
    | none => exact renderIn_quiet

theorem callIf_quiet {value : Value} : Quiet (callIf value inv) := by
  apply quiet_ofHost.bind
  intro falsy
  split
  . exact renderInverse_quiet
  . exact renderIn_quiet

theorem callUnless_quiet {value : Value} : Quiet (callUnless value inv) := by
  apply quiet_ofHost.bind
  intro falsy
  split
  . exact renderIn_quiet
  . exact renderInverse_quiet

theorem blockFragment_quiet {path : String} : Quiet (blockFragment path inv) := by
  apply quiet_partial?.bind
  intro found
  cases found with
  | some fragment => exact quiet_pure
  | none =>
    apply templateAt_quiet.bind
    intro found
    cases found with
    | ok template => exact quiet_register.bind fun _ => quiet_pure
    | error e => exact quiet_log.bind fun _ => quiet_pure

theorem callBlock_quiet {value : Value} : Quiet (callBlock value inv) :=
  expectString_quiet.bind fun _ => blockFragment_quiet.bind fun _ => renderIn_quiet

theorem callRegisterBody_quiet {value : Value} : Quiet (callRegisterBody value inv) :=
  expectString_quiet.bind fun _ => quiet_register

theorem callEmbed_quiet {value : Value} : Quiet (callEmbed value inv) := by
  apply expectString_quiet.bind
  intro path
  apply templateAt_quiet.bind
  intro found
  cases found with
  | ok template => exact quiet_pure
  | error e => exact quiet_throw

theorem calendarName_quiet {calendar : Calendar} {locale : Locale} :
    Quiet (calendarName calendar locale : RenderM σ String) := by
  unfold calendarName
  split
  . exact quiet_pure
  . exact quiet_log.bind fun _ => quiet_pure

theorem callDateFormat_quiet {value : Value} : Quiet (callDateFormat value inv) := by
  unfold callDateFormat
  split
  . have hwrite {format : Except Error String} {calendar : Calendar} {locale : Locale} {date : DateTime} :
        Quiet (do
          let format ← ofExcept format
          let name ← calendarName calendar locale
          return some (← ofExcept (calendar.write name format date)) : RenderM σ (Option String)) :=
      quiet_ofExcept.bind fun _ => calendarName_quiet.bind fun _ => quiet_ofExcept.bind fun _ => quiet_pure
    dsimp only
    split
    . rw [pure_bind]
      exact hwrite
    . exact quiet_ofExcept.bind fun _ => hwrite
  . exact quiet_pure

theorem call_quiet {helper : BuiltIn} {value : Value} : Quiet (helper.call value inv) := by
  cases helper with
  | within => exact callWithin_quiet.bind fun _ => quiet_pure
  | each => exact callEach_quiet.bind fun _ => quiet_pure
  | ifTruthy => exact callIf_quiet.bind fun _ => quiet_pure
  | ifFalsy => exact callUnless_quiet.bind fun _ => quiet_pure
  | block => exact callBlock_quiet.bind fun _ => quiet_pure
  | registerBody => exact callRegisterBody_quiet.bind fun _ => quiet_pure
  | embed => exact callEmbed_quiet.bind fun _ => quiet_pure
  | dateFormat => exact callDateFormat_quiet.bind fun _ => quiet_pure
  | log => exact quiet_log.bind fun _ => quiet_pure

end BuiltIn

/--
Helpers reach the sink only by what they give back, as they are not given any.
-/
def Helpers.Quiet (helpers : Helpers σ) : Prop :=
  ∀ name function, helpers.get? name = some (.custom function) → ∀ value inv, RenderM.Quiet (function value inv)

theorem Helpers.Quiet.function {helpers : Helpers σ} (h : helpers.Quiet) {name : String} {helper : Helper σ}
    (hname : helpers.get? name = some helper) (value : Value) (inv : Invocation σ) :
    RenderM.Quiet (helper.function value inv) := by
  cases helper with
  | builtIn helper => exact BuiltIn.call_quiet
  | custom function => exact h name function hname value inv

theorem Helpers.of_get?_builtIns {name : String} {helper : Helper σ} (h : builtIns.get? name = some helper) :
    ∃ b : BuiltIn, b.name = name ∧ helper = .builtIn b := by
  obtain ⟨b, -, hb⟩ := List.mem_map.1 (Dict.mem_of_mem_ofList (Dict.mem_of_get? h))
  cases hb
  exact ⟨b, rfl, rfl⟩

theorem Helpers.builtIns_quiet : (builtIns : Helpers σ).Quiet := by
  intro name function h
  obtain ⟨b, -, hb⟩ := of_get?_builtIns h
  cases hb

theorem lambdaFragment_quiet {host : Host σ} {callable : Callable σ} {scope : Scope σ} {body : Fragment}
    {d : Delimiters} : Quiet (lambdaFragment host callable scope body d) := by
  apply quiet_ofCall.bind
  intro value
  cases value with
  | string source => exact quiet_log.bind fun _ => quiet_ofExcept.bind fun _ => quiet_pure
  | _ => exact quiet_pure

namespace Walk

variable {w : Walk σ}

theorem callHelper_quiet {helper : Helper σ} (h : ∀ value inv, Quiet (helper.function value inv)) {call : Call}
    {inv : Invocation σ} : Quiet (callHelper helper call inv) :=
  quiet_ofHost.bind fun _ => quiet_ofHost.bind fun _ => h _ _

theorem callBuiltIn_quiet {helper : BuiltIn} {call : Call} {inv : Invocation σ} :
    Quiet (callHelper (.builtIn helper) call inv) := by
  apply callHelper_quiet
  intro value inv
  exact BuiltIn.call_quiet

theorem callImplicit_quiet {helper : BuiltIn} {call : Call} {enclosing : Scope σ} {value : Value}
    {inv : Invocation σ} : Quiet (callImplicit helper call enclosing value inv) :=
  quiet_ofHost.bind fun _ => quiet_ofHost.bind fun _ => BuiltIn.call_quiet

theorem valueText_quiet {scope : Scope σ} {value : Value} : Quiet (w.valueText scope value) := by
  unfold valueText
  split
  . exact lambdaFragment_quiet.bind fun _ => quiet_capture
  . exact quiet_pure

theorem implicitOutput_quiet {scope : Scope σ} {opening : Opening} {body : Fragment} {inverse : Option Fragment} :
    Quiet (w.implicitOutput scope opening body inverse) := by
  apply quiet_ofHost.bind
  intro found
  split
  . exact callImplicit_quiet
  . apply quiet_ofHost.bind
    intro iterable
    split
    . exact callImplicit_quiet
    . split
      . exact callImplicit_quiet
      . split
        . exact lambdaFragment_quiet.bind fun _ => callImplicit_quiet
        . exact callImplicit_quiet

end Walk

end Mustache
