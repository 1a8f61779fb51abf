import Mathlib.Data.List.Forall2
import Mustache.Proofs.Comparison

/-!
This module contains what two renders that are compared do with helpers and nodes. The main statement is that neither
helpers nor nodes tell them apart.
-/

namespace Mustache

open RenderM

variable {σ : Type}

namespace Comparison

variable {engine : Engine σ} {c : Comparison engine}

theorem helpers_quiet (c : Comparison engine) : engine.helpers.Quiet := by
  rw [c.helpers_eq]
  exact Helpers.builtIns_quiet

def SameText (c : Comparison engine) (text other : String) : Prop :=
  text = other ∧ c.Shown text

structure Renderers (c : Comparison engine) (first second : Renderer σ) : Prop where
  first_streams (fragment : Fragment) (scope : Scope σ) : Streams (first fragment scope)
  second_streams (fragment : Fragment) (scope : Scope σ) : Streams (second fragment scope)
  alike {scope : Scope σ} {fragment other : Fragment} : scope.Within c.toHorizon →
    c.Fragments fragment other → c.Alike c.SameText (capture (first fragment scope)) (capture (second other scope))

structure Calls (c : Comparison engine) (inv : Invocation σ) (renderer : Renderer σ) (body : Fragment)
    (inverse : Option Fragment) : Prop where
  settings_eq : inv.settings = engine.toSettings
  within : inv.scope.Within c.toHorizon
  renderers : c.Renderers inv.renderer renderer
  body : c.Fragments inv.body body
  inverse : Option.Rel c.Fragments inv.inverse inverse

theorem included_alike {first second : Renderer σ} {path : String} :
    c.Alike c.Fragments (Walk.includedFragment ⟨engine, first⟩ path) (Walk.includedFragment ⟨engine, second⟩ path) where
  agree {s t} hlinked := by
    rw [Walk.exec_includedFragment, Walk.exec_includedFragment]
    cases hs : s.partials.get? path with
    | some fragment =>
      obtain ⟨other, ht, hother⟩ := c.registered hlinked.registries hs
      rw [ht]
      exact .inr ⟨hlinked, .ok hother⟩
    | none =>
      rcases c.missing hlinked.registries hs with ht | ⟨template, other, hload, ht, hother, -⟩
      . rw [ht]
        dsimp only
        cases hload : engine.loadTemplate path with
        | ok template => exact .inr ⟨⟨hlinked.host_eq, hlinked.registries⟩, .ok (c.loaded hload)⟩
        | error e => exact .inr ⟨hlinked, .error _⟩
      . rw [ht]
        dsimp only
        rw [hload]
        exact .inr ⟨⟨hlinked.host_eq, hlinked.registries⟩, .ok hother⟩
  lost hlost s := by
    refine ⟨?_, fun fragment _ => c.lost_any fragment hlost⟩
    rw [Walk.exec_includedFragment]
    split
    . exact List.prefix_refl _
    . split
      . exact List.prefix_append _ _
      . exact List.prefix_refl _

variable {inv : Invocation σ} {renderer : Renderer σ} {body : Fragment} {inverse : Option Fragment} {value : Value}

theorem blockFragment_alike (h : c.Calls inv renderer body inverse) {path : String} :
    c.Alike c.Fragments (BuiltIn.blockFragment path inv)
      (BuiltIn.blockFragment path { inv with renderer, body, inverse }) where
  agree {s t} hlinked := by
    rw [BuiltIn.exec_blockFragment, BuiltIn.exec_blockFragment, h.settings_eq]
    cases hs : s.partials.get? path with
    | some fragment =>
      obtain ⟨other, ht, hother⟩ := c.registered hlinked.registries hs
      rw [ht]
      exact .inr ⟨hlinked, .ok hother⟩
    | none =>
      rcases c.missing hlinked.registries hs with ht | ⟨template, other, hload, ht, hother, hregistries⟩
      . rw [ht]
        dsimp only
        cases hload : engine.loadTemplate path with
        | ok template =>
          rcases c.insert path hlinked.registries (c.loaded hload) with hlost | hregistries
          . exact .inl (hlost _)
          . exact .inr ⟨⟨hlinked.host_eq, hregistries⟩, .ok (c.loaded hload)⟩
        | error e => exact .inr ⟨⟨hlinked.host_eq, hlinked.registries⟩, .ok h.body⟩
      . rw [ht]
        dsimp only
        rw [hload]
        exact .inr ⟨⟨hlinked.host_eq, hregistries⟩, .ok hother⟩
  lost hlost s := by
    refine ⟨?_, fun fragment _ => c.lost_any fragment hlost⟩
    rw [BuiltIn.exec_blockFragment]
    split
    . exact List.prefix_refl _
    . split
      . rw [List.append_assoc]
        exact List.prefix_append _ _
      . exact List.prefix_append _ _

section

open BuiltIn

variable (h : c.Calls inv renderer body inverse)
include h

theorem renderIn_alike {scope : Scope σ} (hscope : scope.Within c.toHorizon) {fragment other : Fragment}
    (hother : c.Fragments fragment other) :
    c.Alike c.SameText (inv.renderIn fragment scope) ({ inv with renderer, body, inverse }.renderIn other scope) :=
  h.renderers.alike hscope hother

theorem renderBodyWith_alike (hvalue : c.Values value) {locals : Dict Value}
    (hlocals : ∀ entry ∈ locals, c.Values entry.2) :
    c.Alike c.SameText (inv.renderBodyWith value locals)
      ({ inv with renderer, body, inverse }.renderBodyWith value locals) :=
  renderIn_alike h (h.within.child hvalue hlocals) h.body

theorem renderBody_alike :
    c.Alike c.SameText inv.renderBody ({ inv with renderer, body, inverse }.renderBody) :=
  renderIn_alike h h.within h.body

theorem renderInverse_alike :
    c.Alike c.SameText inv.renderInverse ({ inv with renderer, body, inverse }.renderInverse) := by
  have hinverse := h.inverse
  unfold Invocation.renderInverse
  dsimp only
  generalize inv.inverse = first at hinverse
  cases hinverse with
  | none => exact .pure ⟨rfl, c.shown_empty⟩
  | some hother => exact renderIn_alike h h.within hother

omit h in
theorem expectString_alike {host : Host σ} : c.Alike Eq (expectString host value) (expectString host value) := by
  unfold expectString
  split
  . exact .pure rfl
  . exact .throw
  . exact .throw

theorem renderElements_alike {count index : Nat} {elements : List Value}
    (helements : ∀ element ∈ elements, c.Values element) :
    c.Alike c.SameText (renderElements inv count index elements)
      (renderElements { inv with renderer, body, inverse } count index elements) := by
  induction elements generalizing index with
  | nil => exact .pure ⟨rfl, c.shown_empty⟩
  | cons element elements ih =>
    obtain ⟨helement, helements⟩ := List.forall_mem_cons.1 helements
    apply (renderBodyWith_alike h helement fun entry hentry => c.plain (elementLocals_plain entry hentry)).bind
    rintro text _ ⟨rfl, htext⟩
    apply (ih helements).bind
    rintro rest _ ⟨rfl, hrest⟩
    exact .pure ⟨rfl, c.shown_append htext hrest⟩

variable (hvalue : c.Values value)
include hvalue

theorem callWithin_alike :
    c.Alike c.SameText (callWithin value inv) (callWithin value { inv with renderer, body, inverse }) := by
  unfold callWithin
  dsimp only
  split
  . exact renderBody_alike h
  . exact renderBodyWith_alike h hvalue Dict.forall_mem_empty

theorem callEach_alike :
    c.Alike c.SameText (callEach value inv) (callEach value { inv with renderer, body, inverse }) := by
  have hclosed : Answers (∀ items ∈ ·, ∀ item ∈ items, c.Values item) (inv.settings.host.elements? value) := by
    rw [h.settings_eq]
    exact c.element hvalue
  apply Alike.ofHost_eq.bind
  rintro falsy _ rfl
  split
  . exact renderInverse_alike h
  . apply (Alike.ofHost hclosed).bind
    rintro found _ ⟨rfl, helements⟩
    cases found with
    | some elements => exact renderElements_alike h (helements elements rfl)
    | none => exact renderBodyWith_alike h hvalue Dict.forall_mem_empty

omit hvalue

theorem callIf_alike :
    c.Alike c.SameText (callIf value inv) (callIf value { inv with renderer, body, inverse }) := by
  apply Alike.ofHost_eq.bind
  rintro falsy _ rfl
  split
  . exact renderInverse_alike h
  . exact renderBody_alike h

theorem callUnless_alike :
    c.Alike c.SameText (callUnless value inv) (callUnless value { inv with renderer, body, inverse }) := by
  apply Alike.ofHost_eq.bind
  rintro falsy _ rfl
  split
  . exact renderBody_alike h
  . exact renderInverse_alike h

theorem callBlock_alike :
    c.Alike c.SameText (callBlock value inv) (callBlock value { inv with renderer, body, inverse }) := by
  apply expectString_alike.bind
  rintro path _ rfl
  apply (blockFragment_alike h).bind
  intro fragment other hother
  exact renderIn_alike h h.within hother

theorem callRegisterBody_alike :
    c.Alike (fun _ _ => True) (callRegisterBody value inv)
      (callRegisterBody value { inv with renderer, body, inverse }) := by
  apply expectString_alike.bind
  rintro path _ rfl
  exact .register h.body

omit h

theorem callEmbed_alike : c.Alike Eq (callEmbed value inv) (callEmbed value inv) := by
  apply expectString_alike.bind
  rintro path _ rfl
  apply Alike.templateAt.bind
  rintro found _ rfl
  cases found with
  | ok template => exact .pure rfl
  | error e => exact .throw

theorem calendarName_alike {calendar : Calendar} {locale : Locale} :
    c.Alike Eq (calendarName calendar locale) (calendarName calendar locale) := by
  unfold calendarName
  split
  . exact .pure rfl
  . apply Alike.log.bind
    intro _ _ _
    exact .pure rfl

theorem callDateFormat_alike : c.Alike Eq (callDateFormat value inv) (callDateFormat value inv) := by
  unfold callDateFormat
  split
  . have hwrite {format : Except Error String} {calendar : Calendar} {locale : Locale} {date : DateTime} :
        let write : RenderM σ (Option String) := do
          let format ← ofExcept format
          let name ← calendarName calendar locale
          return some (← ofExcept (calendar.write name format date))
        c.Alike Eq write write := by
      apply Alike.ofExcept.bind
      rintro format _ rfl
      apply calendarName_alike.bind
      rintro name _ rfl
      apply Alike.ofExcept.bind
      rintro text _ rfl
      exact .pure rfl
    dsimp only
    split
    . rw [pure_bind]
      exact hwrite
    . apply Alike.ofExcept.bind
      rintro locale _ rfl
      exact hwrite
  . exact .pure rfl

end

section

open BuiltIn

variable {escapes : Bool}

def writtenText (escapes : Bool) : Option Output → String
  | none => ""
  | some (.text text) => if escapes then Text.escapeHtml text else text
  | some (.safe text) => text

theorem capture_writeOutput (output : Option Output) :
    capture (writeOutput escapes output) = (pure (writtenText escapes output) : RenderM σ String) := by
  unfold writeOutput writtenText
  split
  . exact capture_nothing
  . exact capture_text _
  . exact capture_text _

theorem capture_output {x : RenderM σ (Option Output)} (hx : Quiet x) :
    capture (x >>= writeOutput escapes) = x >>= fun output => pure (writtenText escapes output) := by
  rw [hx.capture_bind]
  simp only [capture_writeOutput]

theorem text_written (x : RenderM σ String) :
    ((do return some (.text (← x))) >>= fun output => pure (writtenText false output)) = x := by
  rw [bind_assoc]
  exact bind_pure x

def SameOutput (c : Comparison engine) (escapes : Bool) (output other : Option Output) : Prop :=
  output = other ∧ c.Shown (writtenText escapes output)

def Allows (c : Comparison engine) (name : String) (escapes : Bool) : Prop :=
  (∀ text, c.Shown text) ∨ name ≠ embed.name ∧ (escapes = true ∨ name ≠ dateFormat.name)

theorem sameOutput_text {text : String} (h : c.Shown text) :
    c.SameOutput escapes (some (.text text)) (some (.text text)) := by
  refine ⟨rfl, ?_⟩
  change c.Shown (if escapes then Text.escapeHtml text else text)
  split
  . exact c.shown_escaped text
  . exact h

theorem append_alike {x y u v : RenderM σ String} (hx : c.Alike c.SameText x y) (hu : c.Alike c.SameText u v) :
    c.Alike c.SameText (do return (← x) ++ (← u)) (do return (← y) ++ (← v)) := by
  apply hx.bind
  rintro text _ ⟨rfl, htext⟩
  apply hu.bind
  rintro rest _ ⟨rfl, hrest⟩
  exact .pure ⟨rfl, c.shown_append htext hrest⟩

theorem output_alike {x y : RenderM σ String} (h : c.Alike c.SameText x y) :
    c.Alike (c.SameOutput escapes) (do return some (.text (← x))) (do return some (.text (← y))) := by
  apply h.bind
  rintro text _ ⟨rfl, htext⟩
  exact .pure (sameOutput_text htext)

theorem call_alike (h : c.Calls inv renderer body inverse) (hvalue : c.Values value) {helper : BuiltIn}
    (hallows : c.Allows helper.name escapes) :
    c.Alike (c.SameOutput escapes) (helper.call value inv)
      (helper.call value { inv with renderer, body, inverse }) := by
  cases helper with
  | within => exact output_alike (callWithin_alike h hvalue)
  | each => exact output_alike (callEach_alike h hvalue)
  | ifTruthy => exact output_alike (callIf_alike h)
  | ifFalsy => exact output_alike (callUnless_alike h)
  | block => exact output_alike (callBlock_alike h)
  | registerBody =>
    apply (callRegisterBody_alike h).bind
    intro _ _ _
    exact .pure ⟨rfl, c.shown_empty⟩
  | embed =>
    rcases hallows with hall | ⟨hname, -⟩
    . apply callEmbed_alike.bind
      rintro text _ rfl
      exact .pure ⟨rfl, hall _⟩
    . exact absurd rfl hname
  | dateFormat =>
    apply callDateFormat_alike.bind
    rintro text _ rfl
    refine .pure ⟨rfl, ?_⟩
    cases text with
    | none => exact c.shown_empty
    | some text =>
      rcases hallows with hall | ⟨-, hescapes | hname⟩
      . exact hall _
      . subst hescapes
        exact c.shown_escaped text
      . exact absurd rfl hname
  | log =>
    apply Alike.log.bind
    intro _ _ _
    exact .pure ⟨rfl, c.shown_empty⟩

end

/--
Nodes that are rendered alike if the fragments in them are.
-/
inductive Nodes (c : Comparison engine) : Node → Node → Prop where
  | literal {text : String} : c.Shown text → Nodes c (.literal text) (.literal text)
  | comment (text : String) : Nodes c (.comment text) (.comment text)
  | variable {call : Call} {escape : Escape} : (∀ text, c.Shown text) ∨ escape.escapes = true →
    c.Allows call.name escape.escapes → Nodes c (.variable call escape) (.variable call escape)
  | inclusion (path : String) : Nodes c (.inclusion path) (.inclusion path)
  | block {opening : Opening} {body other inverse otherInverse : Option Fragment} :
    c.Allows opening.call.name false → Option.Rel c.Fragments body other →
    Option.Rel c.Fragments inverse otherInverse →
    Nodes c (.block opening body inverse) (.block opening other otherInverse)

section

open Walk

variable {first second : Renderer σ} {scope : Scope σ} {other : Fragment} {otherInverse : Option Fragment}

theorem callHelper_alike (h : c.Calls inv renderer body inverse) {helper : BuiltIn} {call : Call} {escapes : Bool}
    (hallows : c.Allows helper.name escapes) :
    c.Alike (c.SameOutput escapes) (callHelper (.builtIn helper) call inv)
      (callHelper (.builtIn helper) call { inv with renderer, body, inverse }) := by
  have hcalls (params : List Value) (hash : Dict Value) : c.Calls { inv with params, hash } renderer body inverse :=
    ⟨h.settings_eq, h.within, h.renderers, h.body, h.inverse⟩
  apply (Alike.ofHost (Scope.evaluateParams_within h.within call.params)).bind
  rintro values _ ⟨rfl, hvalues⟩
  apply Alike.ofHost_eq.bind
  rintro hash _ rfl
  cases values with
  | nil => exact call_alike (hcalls [] hash) h.within.data hallows
  | cons value params => exact call_alike (hcalls params hash) (hvalues value List.mem_cons_self) hallows

theorem callImplicit_alike (h : c.Calls inv renderer body inverse) {helper : BuiltIn} {call : Call}
    {enclosing : Scope σ} (hvalue : c.Values value) (hsection : helper ∈ BuiltIn.sections) :
    c.Alike (c.SameOutput false) (callImplicit helper call enclosing value inv)
      (callImplicit helper call enclosing value { inv with renderer, body, inverse }) := by
  have hallows : c.Allows helper.name false := by
    cases helper with
    | embed => exact absurd hsection (by decide)
    | dateFormat => exact absurd hsection (by decide)
    | _ => exact .inr ⟨by decide, .inr (by decide)⟩
  apply Alike.ofHost_eq.bind
  rintro params _ rfl
  apply Alike.ofHost_eq.bind
  rintro hash _ rfl
  have hcalls : c.Calls { inv with params, hash } renderer body inverse :=
    ⟨h.settings_eq, h.within, h.renderers, h.body, h.inverse⟩
  exact call_alike hcalls hvalue hallows

theorem lambdaFragment_alike {callable : Callable σ} {d : Delimiters} {host : Host σ} :
    c.Alike Eq (lambdaFragment host callable scope body d) (lambdaFragment host callable scope body d) := by
  apply Alike.ofCall.bind
  rintro result _ rfl
  cases result with
  | string source =>
    apply Alike.log.bind
    intro _ _ _
    apply Alike.ofExcept.bind
    rintro template _ rfl
    exact .pure rfl
  | _ => exact .pure rfl

variable (hrenderers : c.Renderers first second) (hscope : scope.Within c.toHorizon)
include hrenderers hscope

theorem calls_of_within (hbody : c.Fragments body other) (hinverse : Option.Rel c.Fragments inverse otherInverse) :
    c.Calls { Walk.invocation ⟨engine, first⟩ scope with body, inverse } second other otherInverse :=
  ⟨rfl, hscope, hrenderers, hbody, hinverse⟩

theorem valueText_alike (hvalue : c.Values value) :
    c.Alike Eq (valueText ⟨engine, first⟩ scope value) (valueText ⟨engine, second⟩ scope value) := by
  unfold valueText
  dsimp only
  split
  next callable hcallable =>
    apply lambdaFragment_alike.bind
    rintro fragment _ rfl
    have hfragment := (c.callable hvalue hcallable fragment fragment).2 rfl
    exact (hrenderers.alike hscope hfragment).imp fun _ _ h => h.1
  next => exact .pure rfl

omit hrenderers hscope in
theorem writeOutput_alike {escapes : Bool} {x y : RenderM σ (Option Output)} (hx : Quiet x) (hy : Quiet y)
    (h : c.Alike (c.SameOutput escapes) x y) :
    c.Alike c.SameText (capture (x >>= writeOutput escapes)) (capture (y >>= writeOutput escapes)) := by
  rw [capture_output hx, capture_output hy]
  apply h.bind
  rintro output _ ⟨rfl, hshown⟩
  exact .pure ⟨rfl, hshown⟩

theorem renderVariable_alike {call : Call} {escape : Escape}
    (hescapes : (∀ text, c.Shown text) ∨ escape.escapes = true) (hallows : c.Allows call.name escape.escapes) :
    c.Alike c.SameText (capture (renderVariable ⟨engine, first⟩ scope call escape))
      (capture (renderVariable ⟨engine, second⟩ scope call escape)) := by
  unfold renderVariable
  dsimp only
  split
  next helper hhelper =>
    rw [c.helpers_eq] at hhelper
    obtain ⟨b, hb, rfl⟩ := Helpers.of_get?_builtIns hhelper
    rw [← hb] at hallows
    apply writeOutput_alike callBuiltIn_quiet callBuiltIn_quiet
    exact callHelper_alike (calls_of_within hrenderers hscope c.nothing .none) hallows
  next =>
    rw [quiet_ofHost.capture_bind, quiet_ofHost.capture_bind]
    apply (Alike.ofHost (Scope.get_within hscope call.name)).bind
    rintro found _ ⟨rfl, hfound⟩
    cases found with
    | none =>
      dsimp only
      rw [quiet_log.capture_eq]
      apply Alike.log.bind
      intro _ _ _
      exact .pure ⟨rfl, c.shown_empty⟩
    | some value =>
      dsimp only
      rw [valueText_quiet.capture_bind, valueText_quiet.capture_bind]
      apply (valueText_alike hrenderers hscope (hfound value rfl)).bind
      rintro text _ rfl
      rw [capture_text]
      refine .pure ⟨rfl, ?_⟩
      rcases hescapes with hall | hescapes
      . exact hall _
      . rw [if_pos hescapes]
        exact c.shown_escaped text

theorem renderInclusion_alike {path : String} :
    c.Alike c.SameText (capture (renderInclusion ⟨engine, first⟩ scope path))
      (capture (renderInclusion ⟨engine, second⟩ scope path)) := by
  rw [renderInclusion_eq, renderInclusion_eq, includedFragment_quiet.capture_bind,
    includedFragment_quiet.capture_bind]
  apply included_alike.bind
  intro fragment other hother
  exact hrenderers.alike hscope hother

theorem implicitOutput_alike {opening : Opening}
    (hbody : c.Fragments body other) (hinverse : Option.Rel c.Fragments inverse otherInverse) :
    c.Alike (c.SameOutput false) (implicitOutput ⟨engine, first⟩ scope opening body inverse)
      (implicitOutput ⟨engine, second⟩ scope opening other otherInverse) := by
  have hcalls := calls_of_within hrenderers hscope hbody hinverse
  apply (Alike.ofHost (Scope.get_within hscope opening.call.name)).bind
  rintro found _ ⟨rfl, hfound⟩
  have hvalue : c.Values (found.getD .null) := by
    cases found with
    | none => exact c.plain trivial
    | some value => exact hfound value rfl
  dsimp only
  split
  . exact callImplicit_alike hcalls hvalue (by decide)
  . apply Alike.ofHost_eq.bind
    rintro iterable _ rfl
    split
    . exact callImplicit_alike hcalls hvalue (by decide)
    . split
      . exact callImplicit_alike hcalls hvalue (by decide)
      . split
        next callable hcallable =>
          -- a lambda can tell fragments apart, so both are given the same one
          have hsame := c.callable hvalue hcallable
          obtain rfl := (hsame body other).1 hbody
          apply lambdaFragment_alike.bind
          rintro fragment _ rfl
          have hinner : c.Calls
              { Walk.invocation ⟨engine, first⟩ scope with body := fragment, inverse, inPlace := true }
              second fragment otherInverse :=
            ⟨rfl, hscope, hrenderers, (hsame fragment fragment).2 rfl, hinverse⟩
          exact callImplicit_alike hinner hvalue (by decide)
        next =>
          have hinner : c.Calls
              { Walk.invocation ⟨engine, first⟩ (scope.child (found.getD .null)) with body, inverse, inPlace := true }
              second other otherInverse :=
            ⟨rfl, hscope.child hvalue Dict.forall_mem_empty, hrenderers, hbody, hinverse⟩
          exact callImplicit_alike hinner hvalue (by decide)

theorem renderBlock_alike {opening : Opening} {body other inverse otherInverse : Option Fragment}
    (hallows : c.Allows opening.call.name false) (hbody : Option.Rel c.Fragments body other)
    (hinverse : Option.Rel c.Fragments inverse otherInverse) :
    c.Alike c.SameText (capture (renderBlock ⟨engine, first⟩ scope opening body inverse))
      (capture (renderBlock ⟨engine, second⟩ scope opening other otherInverse)) := by
  unfold renderBlock
  cases hbody with
  | none => exact .throw
  | some hbody =>
    dsimp only
    split
    next helper hhelper =>
      rw [c.helpers_eq] at hhelper
      obtain ⟨b, hb, rfl⟩ := Helpers.of_get?_builtIns hhelper
      rw [← hb] at hallows
      apply writeOutput_alike callBuiltIn_quiet callBuiltIn_quiet
      exact callHelper_alike (calls_of_within hrenderers hscope hbody hinverse) hallows
    next =>
      apply writeOutput_alike implicitOutput_quiet implicitOutput_quiet
      exact implicitOutput_alike hrenderers hscope hbody hinverse

theorem renderNode_alike {node other : Node} (h : c.Nodes node other) :
    c.Alike c.SameText (capture (renderNode ⟨engine, first⟩ scope node))
      (capture (renderNode ⟨engine, second⟩ scope other)) := by
  cases h with
  | literal htext =>
    change c.Alike _ (capture (write _)) (capture (write _))
    rw [capture_text]
    exact .pure ⟨rfl, htext⟩
  | comment => exact .pure ⟨rfl, c.shown_empty⟩
  | «variable» hescapes hallows => exact renderVariable_alike hrenderers hscope hescapes hallows
  | inclusion => exact renderInclusion_alike hrenderers hscope
  | block hallows hbody hinverse => exact renderBlock_alike hrenderers hscope hallows hbody hinverse

theorem renderNodes_alike {fragment other : Fragment} (h : List.Forall₂ c.Nodes fragment other) :
    c.Alike c.SameText (capture (renderNodes ⟨engine, first⟩ scope fragment))
      (capture (renderNodes ⟨engine, second⟩ scope other)) := by
  have hhelpers := c.helpers_quiet
  induction h with
  | nil => exact .pure ⟨rfl, c.shown_empty⟩
  | cons hnode hnodes ih =>
    unfold renderNodes
    rw [(renderNode_streams hhelpers hrenderers.first_streams _).capture_append
        (renderNodes_streams hhelpers hrenderers.first_streams),
      (renderNode_streams hhelpers hrenderers.second_streams _).capture_append
        (renderNodes_streams hhelpers hrenderers.second_streams)]
    exact append_alike (renderNode_alike hrenderers hscope hnode) ih

end

theorem nodes_self (c : Comparison engine) (hall : ∀ text, c.Shown text)
    (hself : ∀ fragment, c.Fragments fragment fragment) (node : Node) : c.Nodes node node := by
  have hrel (fragment : Option Fragment) : Option.Rel c.Fragments fragment fragment := by
    cases fragment with
    | none => exact .none
    | some fragment => exact .some (hself fragment)
  exact match node with
  | .literal text => .literal (hall text)
  | .comment text => .comment text
  | .variable .. => .variable (.inl hall) (.inl hall)
  | .inclusion path => .inclusion path
  | .block .. => .block (.inl hall) (hrel _) (hrel _)

theorem renderers_of_alike (c : Comparison engine) {depth later : Nat}
    (h : ∀ scope fragment other, scope.Within c.toHorizon → c.Fragments fragment other →
      c.Alike c.SameText (capture (engine.renderer depth fragment scope))
        (capture (engine.renderer later other scope))) :
    c.Renderers (engine.renderer depth) (engine.renderer later) where
  first_streams := Engine.renderer_streams c.helpers_quiet depth
  second_streams := Engine.renderer_streams c.helpers_quiet later
  alike := h _ _ _

/--
Where fragments that belong together consist of nodes that do, the depth to which they are rendered does not matter.
-/
theorem renderers_of_nodes (c : Comparison engine)
    (hnodes : ∀ fragment other, c.Fragments fragment other → List.Forall₂ c.Nodes fragment other) (depth : Nat) :
    c.Renderers (engine.renderer depth) (engine.renderer depth) := by
  induction depth with
  | zero =>
    apply c.renderers_of_alike
    intro scope fragment other _ _
    exact .throw
  | succ depth ih =>
    apply c.renderers_of_alike
    intro scope fragment other hscope hother
    exact renderNodes_alike ih hscope (hnodes _ _ hother)

end Comparison

end Mustache
