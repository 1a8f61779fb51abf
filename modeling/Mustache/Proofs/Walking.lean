import Mustache.Proofs.Quiet
import Mustache.Proofs.Sections
import Mustache.Proofs.Settling

/-!
This module contains what helpers and nodes do in families of renders. The main statement is that a fragment settles if
all that it names is shown or registered within the regime, and all fragments in it settle.
-/

namespace Mustache

open RenderM Limits

variable {σ ι : Type}

def Call.target? (call : Call) : Option String :=
  match call.params with
  | .str text :: _ => some text
  | _ => none

def Call.MayName (call : Call) (text : String) : Prop :=
  ∀ target, call.target? = some target → text = target

theorem Call.answers_target (call : Call) (scope : Scope σ) :
    Answers (fun values => ∀ target, call.target? = some target → ∃ params, values = .string target :: params)
      (scope.evaluateParams call.params) := by
  unfold target?
  cases call.params with
  | nil => exact .pure (by rintro _ ⟨⟩)
  | cons param params =>
    cases param with
    | str text =>
      refine ⟨fun state => ?_⟩
      rintro _ ⟨⟩
      exact ⟨_, rfl⟩
    | _ => exact ⟨fun _ _ h => by cases h⟩

theorem Locale.parse_common {text : String} {e : Error} (h : Locale.parse text = .error e) : e.IsCommon := by
  unfold Locale.parse at h
  split at h
  . cases h
  . cases h
    rintro name ⟨⟩

theorem Locale.dateFormat_common {locale : Locale} {pattern : String} {e : Error}
    (h : locale.dateFormat pattern = .error e) : e.IsCommon := by
  unfold Locale.dateFormat DatePattern.toFormat at h
  dsimp only at h
  split at h
  . cases h
    rintro name ⟨⟩
  . split at h
    . cases h
    . cases h
      rintro name ⟨⟩

theorem Calendar.write_eq_error {calendar : Calendar} {locale format : String} {date : DateTime} {e : Error}
    (h : calendar.write locale format date = .error e) : e = .argumentType format "a valid date pattern" := by
  unfold write at h
  split at h
  . cases h
    rfl
  . split at h
    . cases h
      rfl
    . cases h

theorem Calendar.write_common {calendar : Calendar} {locale format : String} {date : DateTime} {e : Error}
    (h : calendar.write locale format date = .error e) : e.IsCommon := by
  obtain rfl := write_eq_error h
  rintro name ⟨⟩

theorem Template.compile_common {d : Delimiters} {source : String} {name : Option String} {e : Error}
    (h : Template.compile d source name = .error e) : e.IsCommon := by
  unfold Template.compile at h
  split at h
  . cases h
  . cases h
    rintro name ⟨⟩

namespace Limits

variable {c : Limits} {l : Filter ι}

theorem calendarName_settles {calendar : Calendar} {locale : Locale} :
    c.Settles l (fun _ => True) fun _ => (BuiltIn.calendarName calendar locale : RenderM σ String) := by
  unfold BuiltIn.calendarName
  split
  . exact .pure trivial
  . apply Settles.log.bind
    intro _ _
    exact .pure trivial

theorem callDateFormat_settles {value : Value} {inv : Invocation σ}
    (hparse : ∀ text e, Locale.parse text = .error e → c.Fails (.error e))
    (hformat : ∀ (locale : Locale) pattern e, locale.dateFormat pattern = .error e → c.Fails (.error e))
    (hwrite : ∀ (locale : Locale) pattern format name date e, locale.dateFormat pattern = .ok format →
      inv.settings.calendar.write name format date = .error e → c.Fails (.error e)) :
    c.Settles l (fun _ => True) fun _ => BuiltIn.callDateFormat value inv := by
  have hrest (date : DateTime) (locale : Locale) (pattern : String) :
      c.Settles l (fun _ => True) fun _ => (do
        let format ← ofExcept (locale.dateFormat pattern)
        let name ← BuiltIn.calendarName inv.settings.calendar locale
        return some (← ofExcept (inv.settings.calendar.write name format date)) : RenderM σ (Option String)) := by
    apply (Settles.ofExcept (fun _ hok => hok) (hformat locale pattern)).bind
    intro format hok
    apply calendarName_settles.bind
    intro name _
    apply (Settles.ofExcept (fun _ _ => trivial) fun e => hwrite locale pattern format name date e hok).bind
    intro text _
    exact .pure trivial
  unfold BuiltIn.callDateFormat
  split
  . dsimp only
    split
    . rw [pure_bind]
      exact hrest _ _ _
    . apply (Settles.ofExcept (fun _ _ => trivial) (hparse _)).bind
      intro locale _
      exact hrest _ _ _
  . exact .pure trivial

end Limits

namespace Regime

variable {engine : Engine σ} {c : Regime engine} {l : Filter ι} {renderers : ι → Renderer σ} {inv : Invocation σ}

structure Serves (c : Regime engine) (inv : Invocation σ) : Prop where
  settings_eq : inv.settings = engine.toSettings
  within : inv.scope.Within c.toHorizon

structure Allows (c : Regime engine) (helper : BuiltIn) (value : Value) (body : Fragment)
    (inverse : Option Fragment) : Prop where
  given : c.Values value
  shown {path : String} : helper = .block → value = .string path → c.Shown path
  registered {path : String} : helper = .registerBody → value = .string path → c.Registered path body
  body : helper = .registerBody ∨ c.Inside body
  inverse : helper = .registerBody ∨ ∀ fragment ∈ inverse, c.Inside fragment

section

open BuiltIn

variable (hr : c.Renders l renderers) (h : c.Serves inv)

section

include hr

theorem renderIn_settles {scope : Scope σ} (hscope : scope.Within c.toHorizon) {fragment : Fragment}
    (hfragment : c.Inside fragment) :
    c.Settles l (fun _ => True) fun i => { inv with renderer := renderers i }.renderIn fragment scope :=
  .capture (hr.settles hfragment hscope)

include h

theorem renderBodyWith_settles (hbody : c.Inside inv.body) {value : Value} (hvalue : c.Values value)
    {locals : Dict Value} (hlocals : ∀ entry ∈ locals, c.Values entry.2) :
    c.Settles l (fun _ => True) fun i => { inv with renderer := renderers i }.renderBodyWith value locals :=
  renderIn_settles hr (h.within.child hvalue hlocals) hbody

theorem renderBody_settles (hbody : c.Inside inv.body) :
    c.Settles l (fun _ => True) fun i => { inv with renderer := renderers i }.renderBody :=
  renderIn_settles hr h.within hbody

theorem renderInverse_settles (hinverse : ∀ fragment ∈ inv.inverse, c.Inside fragment) :
    c.Settles l (fun _ => True) fun i => { inv with renderer := renderers i }.renderInverse := by
  unfold Invocation.renderInverse
  dsimp only
  split
  next inverse heq => exact renderIn_settles hr h.within (hinverse _ heq)
  next => exact .pure trivial

end

theorem expectString_settles {host : Host σ} {value : Value} :
    c.Settles l (fun path => value = .string path) fun _ => expectString host value := by
  unfold expectString
  split
  . exact .pure rfl
  . exact fail_settles (by rintro name ⟨⟩)
  . exact fail_settles (by rintro name ⟨⟩)

section

include hr h

theorem renderElements_settles (hbody : c.Inside inv.body) {count index : Nat} {elements : List Value}
    (helements : ∀ element ∈ elements, c.Values element) :
    c.Settles l (fun _ => True) fun i => renderElements { inv with renderer := renderers i } count index elements := by
  induction elements generalizing index with
  | nil => exact .pure trivial
  | cons element elements ih =>
    obtain ⟨helement, helements⟩ := List.forall_mem_cons.1 helements
    have hlocals : ∀ entry ∈ elementLocals index count, c.Values entry.2 :=
      fun entry hentry => c.plain (elementLocals_plain entry hentry)
    apply (renderBodyWith_settles hr h hbody helement hlocals).bind
    intro _ _
    apply (ih helements).bind
    intro _ _
    exact .pure trivial

theorem callWithin_settles (hbody : c.Inside inv.body) {value : Value} (hvalue : c.Values value) :
    c.Settles l (fun _ => True) fun i => callWithin value { inv with renderer := renderers i } := by
  unfold callWithin
  cases inv.inPlace with
  | true => exact renderBody_settles hr h hbody
  | false => exact renderBodyWith_settles hr h hbody hvalue Dict.forall_mem_empty

theorem callEach_settles (hbody : c.Inside inv.body) (hinverse : ∀ fragment ∈ inv.inverse, c.Inside fragment)
    {value : Value} (hvalue : c.Values value) :
    c.Settles l (fun _ => True) fun i => callEach value { inv with renderer := renderers i } := by
  have hclosed : Answers (∀ items ∈ ·, ∀ item ∈ items, c.Values item) (inv.settings.host.elements? value) := by
    rw [h.settings_eq]
    exact c.element hvalue
  unfold callEach
  dsimp only
  apply Settles.ofHost_any.bind
  intro falsy _
  split
  . exact renderInverse_settles hr h hinverse
  . apply (Settles.ofHost hclosed).bind
    intro found helements
    cases found with
    | some elements => exact renderElements_settles hr h hbody (helements elements rfl)
    | none => exact renderBodyWith_settles hr h hbody hvalue Dict.forall_mem_empty

theorem callIf_settles (hbody : c.Inside inv.body) (hinverse : ∀ fragment ∈ inv.inverse, c.Inside fragment)
    {value : Value} : c.Settles l (fun _ => True) fun i => callIf value { inv with renderer := renderers i } := by
  unfold callIf
  dsimp only
  apply Settles.ofHost_any.bind
  intro falsy _
  split
  . exact renderInverse_settles hr h hinverse
  . exact renderBody_settles hr h hbody

theorem callUnless_settles (hbody : c.Inside inv.body) (hinverse : ∀ fragment ∈ inv.inverse, c.Inside fragment)
    {value : Value} : c.Settles l (fun _ => True) fun i => callUnless value { inv with renderer := renderers i } := by
  unfold callUnless
  dsimp only
  apply Settles.ofHost_any.bind
  intro falsy _
  split
  . exact renderBody_settles hr h hbody
  . exact renderInverse_settles hr h hinverse

end

section

include h

theorem templateAt_settles_of_serves {path : String} :
    c.Settles l (fun found => ∀ template, found = .ok template → engine.loadTemplate path = .ok template)
      fun _ => inv.settings.templateAt path := by
  rw [h.settings_eq]
  exact templateAt_settles

theorem blockFragment_settles (hbody : c.Inside inv.body) {path : String} (hpath : c.Shown path) :
    c.Settles l c.Inside fun _ => blockFragment path inv := by
  apply (partial?_settles hpath).bind
  intro found hfound
  cases found with
  | some fragment => exact .pure (hfound fragment rfl)
  | none =>
    apply (templateAt_settles_of_serves h).bind
    intro found hfound
    cases found with
    | ok template =>
      obtain ⟨hinside, hregistered⟩ := c.loaded hpath (hfound template rfl)
      apply (register_settles hregistered).bind
      intro _ _
      exact .pure hinside
    | error e =>
      apply Settles.log.bind
      intro _ _
      exact .pure hbody

theorem callBlock_settles (hr : c.Renders l renderers) (hbody : c.Inside inv.body) {value : Value}
    (hshown : ∀ path, value = .string path → c.Shown path) :
    c.Settles l (fun _ => True) fun i => callBlock value { inv with renderer := renderers i } := by
  unfold callBlock
  dsimp only
  apply expectString_settles.bind
  intro path hpath
  apply (blockFragment_settles h hbody (hshown path hpath)).bind
  intro fragment hfragment
  exact renderIn_settles hr h.within hfragment

theorem callEmbed_settles {value : Value} : c.Settles l (fun _ => True) fun _ => callEmbed value inv := by
  apply expectString_settles.bind
  intro path _
  apply (templateAt_settles_of_serves h).bind
  intro found _
  cases found with
  | ok template => exact .pure trivial
  | error e => exact fail_settles (by rintro name ⟨⟩)

end

theorem callRegisterBody_settles {value : Value}
    (hregistered : ∀ path, value = .string path → c.Registered path inv.body) :
    c.Settles l (fun _ => True) fun _ => callRegisterBody value inv := by
  apply expectString_settles.bind
  intro path hpath
  exact register_settles (hregistered path hpath)

theorem callDateFormat_settles {value : Value} : c.Settles l (fun _ => True) fun _ => callDateFormat value inv :=
  Limits.callDateFormat_settles (fun _ _ he => c.common (Locale.parse_common he))
    (fun _ _ _ he => c.common (Locale.dateFormat_common he))
    fun _ _ _ _ _ _ _ he => c.common (Calendar.write_common he)

theorem output_settles {x : ι → RenderM σ String} (h : c.Settles l (fun _ => True) x) :
    c.Settles l (fun _ => True) fun i => (do return some (.text (← x i)) : RenderM σ (Option Output)) :=
  h.bind fun _ _ => .pure trivial

theorem call_settles (hr : c.Renders l renderers) (h : c.Serves inv) {helper : BuiltIn} {value : Value}
    (hallows : c.Allows helper value inv.body inv.inverse) :
    c.Settles l (fun _ => True) fun i => helper.call value { inv with renderer := renderers i } := by
  have hbody (hne : helper ≠ .registerBody) : c.Inside inv.body := hallows.body.resolve_left hne
  have hinverse (hne : helper ≠ .registerBody) := hallows.inverse.resolve_left hne
  cases helper with
  | within => exact output_settles (callWithin_settles hr h (hbody (by simp)) hallows.given)
  | each => exact output_settles (callEach_settles hr h (hbody (by simp)) (hinverse (by simp)) hallows.given)
  | ifTruthy => exact output_settles (callIf_settles hr h (hbody (by simp)) (hinverse (by simp)))
  | ifFalsy => exact output_settles (callUnless_settles hr h (hbody (by simp)) (hinverse (by simp)))
  | block => exact output_settles (callBlock_settles h hr (hbody (by simp)) fun _ => hallows.shown rfl)
  | registerBody =>
    have hregister : c.Settles l (fun _ => True) fun _ => callRegisterBody value inv :=
      callRegisterBody_settles fun _ => hallows.registered rfl
    exact hregister.bind fun _ _ => .pure trivial
  | embed => exact (callEmbed_settles h).bind fun _ _ => .pure trivial
  | dateFormat => exact callDateFormat_settles.bind fun _ _ => .pure trivial
  | log =>
    let record : LogRecord := .value (inv.settings.host.text value)
    have hlog : c.Settles l (fun _ => True) fun _ => (RenderM.log record : RenderM σ Unit) := .log
    exact hlog.bind fun _ _ => .pure trivial

end

section

open Walk

variable {scope : Scope σ} {body : Fragment} {inverse : Option Fragment}

structure Admits (c : Regime engine) (call : Call) (body : Fragment) (inverse : Option Fragment) : Prop where
  shown {path : String} : call.name = BuiltIn.block.name → call.MayName path → c.Shown path
  registered {path : String} : call.name = BuiltIn.registerBody.name → call.MayName path → c.Registered path body
  body : call.name = BuiltIn.registerBody.name ∨ c.Inside body
  inverse : call.name = BuiltIn.registerBody.name ∨ ∀ fragment ∈ inverse, c.Inside fragment

theorem Admits.allows {call : Call} (h : c.Admits call body inverse) {helper : BuiltIn}
    (hname : helper.name = call.name) {value : Value} (hvalue : c.Values value)
    (htarget : ∀ text, value = .string text → call.MayName text) : c.Allows helper value body inverse := by
  have hregister (hcall : call.name = BuiltIn.registerBody.name) : helper = .registerBody := by
    rw [hcall] at hname
    revert hname
    cases helper <;> decide
  refine ⟨hvalue, ?_, ?_, h.body.imp_left hregister, h.inverse.imp_left hregister⟩
  . rintro path rfl hpath
    exact h.shown hname.symm (htarget path hpath)
  . rintro path rfl hpath
    exact h.registered hname.symm (htarget path hpath)

theorem lambdaFragment_settles {value : Value} (hvalue : c.Values value) {callable : Callable σ}
    (hcallable : engine.host.callable? value = some callable) (d : Delimiters) :
    c.Settles l c.Inside fun _ => lambdaFragment engine.host callable scope body d := by
  obtain ⟨hfails, hcompiled, hliteral⟩ := c.callable hvalue hcallable
  apply (Settles.ofCall (hfails _ _)).bind
  intro result _
  cases result with
  | string source =>
    apply Settles.log.bind
    intro _ _
    apply (Settles.ofExcept (fun _ h => hcompiled h) fun e he => c.common (Template.compile_common he)).bind
    intro template htemplate
    exact .pure htemplate
  | _ => exact .pure (hliteral _)

theorem writeOutput_settles {escapes : Bool} {output : Option Output} :
    c.Settles l (fun _ => True) fun _ => (writeOutput escapes output : RenderM σ Unit) := by
  unfold writeOutput
  split
  . exact .pure trivial
  . exact write_settles
  . exact write_settles

variable (hr : c.Renders l renderers)
include hr

theorem callHelper_settles (h : c.Serves inv) {call : Call} {helper : BuiltIn} (hname : helper.name = call.name)
    (hadmits : c.Admits call inv.body inv.inverse) :
    c.Settles l (fun _ => True) fun i => callHelper (.builtIn helper) call { inv with renderer := renderers i } := by
  have hparams : Answers (fun values => (∀ value ∈ values, c.Values value) ∧
      ∀ target, call.target? = some target → ∃ params, values = .string target :: params)
      (inv.scope.evaluateParams call.params) :=
    ⟨fun state => ⟨(Scope.evaluateParams_within h.within call.params).run state,
      (call.answers_target inv.scope).run state⟩⟩
  unfold callHelper
  dsimp only
  apply (Settles.ofHost hparams).bind
  rintro values ⟨hvalues, htarget⟩
  apply Settles.ofHost_any.bind
  intro hash _
  have hserves (params : List Value) : c.Serves { inv with params, hash } := ⟨h.settings_eq, h.within⟩
  cases values with
  | nil =>
    refine call_settles hr (hserves []) (hadmits.allows hname h.within.data ?_)
    intro text _ target ht
    obtain ⟨params, hparams⟩ := htarget target ht
    cases hparams
  | cons value params =>
    refine call_settles hr (hserves params) (hadmits.allows hname (hvalues value List.mem_cons_self) ?_)
    rintro text rfl target ht
    obtain ⟨params, hparams⟩ := htarget target ht
    cases hparams
    rfl

theorem callImplicit_settles (h : c.Serves inv) {helper : BuiltIn} (hsection : helper ∈ BuiltIn.sections)
    (hbody : c.Inside inv.body) (hinverse : ∀ fragment ∈ inv.inverse, c.Inside fragment) {call : Call}
    {enclosing : Scope σ} {value : Value} (hvalue : c.Values value) :
    c.Settles l (fun _ => True) fun i =>
      callImplicit helper call enclosing value { inv with renderer := renderers i } := by
  unfold callImplicit
  dsimp only
  apply Settles.ofHost_any.bind
  intro params _
  apply Settles.ofHost_any.bind
  intro hash _
  have hserves : c.Serves { inv with params, hash } := ⟨h.settings_eq, h.within⟩
  refine call_settles hr hserves ⟨hvalue, ?_, ?_, .inr hbody, .inr hinverse⟩
  . rintro path rfl
    exact absurd hsection (by decide)
  . rintro path rfl
    exact absurd hsection (by decide)

variable (hscope : scope.Within c.toHorizon)
include hscope

theorem valueText_settles {value : Value} (hvalue : c.Values value) :
    c.Settles l (fun _ => True) fun i => valueText ⟨engine, renderers i⟩ scope value := by
  unfold valueText
  dsimp only
  split
  next callable hcallable =>
    apply (lambdaFragment_settles hvalue hcallable engine.delimiters).bind
    intro fragment hfragment
    exact .capture (hr.settles hfragment hscope)
  next => exact .pure trivial

theorem renderVariable_settles {call : Call} {escape : Escape} (hadmits : c.Admits call [] none) :
    c.Settles l (fun _ => True) fun i => renderVariable ⟨engine, renderers i⟩ scope call escape := by
  unfold renderVariable
  dsimp only
  split
  next helper hhelper =>
    rw [c.helpers_eq] at hhelper
    obtain ⟨b, hb, rfl⟩ := Helpers.of_get?_builtIns hhelper
    have hserves : c.Serves (Walk.invocation ⟨engine, fun _ _ => pure ()⟩ scope) := ⟨rfl, hscope⟩
    apply (callHelper_settles hr hserves hb hadmits).bind
    intro output _
    exact writeOutput_settles
  next =>
    apply (Settles.ofHost (Scope.get_within hscope call.name)).bind
    intro found hfound
    cases found with
    | none => exact .log
    | some value =>
      apply (valueText_settles hr hscope (hfound value rfl)).bind
      intro text _
      exact write_settles

theorem renderInclusion_settles {path : String} (hpath : c.Shown path) :
    c.Settles l (fun _ => True) fun i => renderInclusion ⟨engine, renderers i⟩ scope path := by
  unfold renderInclusion
  dsimp only
  apply (partial?_settles hpath).bind
  intro found hfound
  cases found with
  | some fragment => exact hr.settles (hfound fragment rfl) hscope
  | none =>
    apply templateAt_settles.bind
    intro found hfound
    cases found with
    | ok template => exact hr.settles (c.loaded hpath (hfound template rfl)).1 hscope
    | error e => exact fail_settles (by rintro name ⟨⟩)

theorem implicitOutput_settles {opening : Opening} (hbody : c.Inside body)
    (hinverse : ∀ fragment ∈ inverse, c.Inside fragment) :
    c.Settles l (fun _ => True) fun i => implicitOutput ⟨engine, renderers i⟩ scope opening body inverse := by
  have hserves {scope : Scope σ} (hscope : scope.Within c.toHorizon) (body : Fragment) (inPlace : Bool) :
      c.Serves { Walk.invocation ⟨engine, fun _ _ => pure ()⟩ scope with body, inverse, inPlace } := ⟨rfl, hscope⟩
  unfold implicitOutput
  dsimp only
  apply (Settles.ofHost (Scope.get_within hscope opening.call.name)).bind
  intro found hfound
  have hvalue : c.Values (found.getD .null) := by
    cases found with
    | none => exact c.plain trivial
    | some value => exact hfound value rfl
  split
  . exact callImplicit_settles hr (hserves hscope body false) (by decide) hbody hinverse hvalue
  . apply Settles.ofHost_any.bind
    intro iterable _
    split
    . exact callImplicit_settles hr (hserves hscope body false) (by decide) hbody hinverse hvalue
    . split
      . exact callImplicit_settles hr (hserves hscope body false) (by decide) hbody hinverse hvalue
      . split
        next callable hcallable =>
          apply (lambdaFragment_settles hvalue hcallable opening.delimiters).bind
          intro fragment hfragment
          exact callImplicit_settles hr (hserves hscope fragment true) (by decide) hfragment hinverse hvalue
        next =>
          have hchild := hscope.child hvalue Dict.forall_mem_empty
          exact callImplicit_settles hr (hserves hchild body true) (by decide) hbody hinverse hvalue

theorem renderBlock_settles {opening : Opening} (hadmits : c.Admits opening.call body inverse) :
    c.Settles l (fun _ => True) fun i => renderBlock ⟨engine, renderers i⟩ scope opening (some body) inverse := by
  unfold renderBlock
  dsimp only
  split
  next helper hhelper =>
    rw [c.helpers_eq] at hhelper
    obtain ⟨b, hb, rfl⟩ := Helpers.of_get?_builtIns hhelper
    have hserves : c.Serves { Walk.invocation ⟨engine, fun _ _ => pure ()⟩ scope with body, inverse } := ⟨rfl, hscope⟩
    apply (callHelper_settles hr hserves hb hadmits).bind
    intro output _
    exact writeOutput_settles
  next hnone =>
    have hname : opening.call.name ≠ BuiltIn.registerBody.name := by
      intro hname
      rw [c.helpers_eq, hname] at hnone
      cases hnone
    have hbody := hadmits.body.resolve_left hname
    have hinverse := hadmits.inverse.resolve_left hname
    apply (implicitOutput_settles hr hscope hbody hinverse).bind
    intro output _
    exact writeOutput_settles

end

/--
A node may be rendered: what it shows, registers and contains is within the regime, and if it is a section without a
body, then so is the failure.
-/
def Permits (c : Regime engine) : Node → Prop
  | .literal _ | .comment _ => True
  | .variable call _ => c.Admits call [] none
  | .inclusion path => c.Shown path
  | .block opening none _ => c.Fails (.error (.missingBody opening.call.name))
  | .block opening (some body) inverse => c.Admits opening.call body inverse

section

open Walk

variable {scope : Scope σ} (hr : c.Renders l renderers) (hscope : scope.Within c.toHorizon)
include hr hscope

theorem renderNode_settles {node : Node} (h : c.Permits node) :
    c.Settles l (fun _ => True) fun i => renderNode ⟨engine, renderers i⟩ scope node :=
  match node with
  | .literal _ => write_settles
  | .comment _ => .pure trivial
  | .variable .. => renderVariable_settles hr hscope h
  | .inclusion _ => renderInclusion_settles hr hscope h
  | .block _ none _ => .throw h
  | .block _ (some _) _ => renderBlock_settles hr hscope h

theorem renderNodes_settles {fragment : Fragment} (h : ∀ node ∈ fragment, c.Permits node) :
    c.Settles l (fun _ => True) fun i => renderNodes ⟨engine, renderers i⟩ scope fragment := by
  induction fragment with
  | nil => exact .pure trivial
  | cons node nodes ih =>
    obtain ⟨hnode, hnodes⟩ := List.forall_mem_cons.1 h
    exact (renderNode_settles hr hscope hnode).bind fun _ _ => ih hnodes

end

end Regime

end Mustache
