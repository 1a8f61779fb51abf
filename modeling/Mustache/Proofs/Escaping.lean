import Mustache.Proofs.Alike
import Mustache.Proofs.Html

/-!
This module contains templates that write nothing without escaping it. The main statement is that what such templates
render means nothing in HTML but itself.
-/

namespace Mustache

open RenderM

variable {σ : Type}

mutual

/--
No text gets through the node that means something in HTML.
-/
def Node.Escapes : Node → Prop
  | .literal text => ∀ c ∈ text.toList, c ∉ '&' :: Text.markup
  | .comment _ | .inclusion _ => True
  | .variable call escape => escape = .html ∧ call.name ≠ BuiltIn.embed.name
  | .block opening body inverse =>
    opening.call.name ≠ BuiltIn.embed.name ∧ opening.call.name ≠ BuiltIn.dateFormat.name ∧
      Fragment.AnyEscapes body ∧ Fragment.AnyEscapes inverse

def Fragment.Escapes : List Node → Prop
  | [] => True
  | node :: nodes => node.Escapes ∧ Fragment.Escapes nodes

def Fragment.AnyEscapes : Option (List Node) → Prop
  | none => True
  | some fragment => Fragment.Escapes fragment

end

def Dict.AllEscape (registry : Dict Fragment) : Prop :=
  ∀ name fragment, registry.get? name = some fragment → Fragment.Escapes fragment

namespace Engine

variable {engine : Engine σ}

def escapingComparison (hhelpers : engine.helpers = .builtIns) {resolvers : List (Resolver σ)} {given : Value → Prop}
    (hlambdas : ∀ value, Reached engine.host resolvers given value → engine.host.callable? value = none)
    (hloader : ∀ path template, engine.loadTemplate path = .ok template → Fragment.Escapes template.fragment) :
    Comparison engine where
  toHorizon := .reached engine.host resolvers given
  Fragments fragment other := fragment = other ∧ Fragment.Escapes fragment
  Registries first second := first = second ∧ first.AllEscape
  Shown := Text.IsEscaped
  Lost _ _ := False
  helpers_eq := hhelpers
  callable hvalue hcallable := by
    rw [hlambdas _ hvalue] at hcallable
    cases hcallable
  nothing := ⟨rfl, trivial⟩
  shown_empty := Text.isEscaped_empty
  shown_append := .append
  shown_escaped := Text.isEscaped_escapeHtml
  registered h hfirst := by
    obtain ⟨rfl, hall⟩ := h
    exact ⟨_, hfirst, rfl, hall _ _ hfirst⟩
  missing h hfirst := by
    obtain ⟨rfl, -⟩ := h
    exact .inl hfirst
  loaded hload := ⟨rfl, hloader _ _ hload⟩
  insert path _ _ h hother := by
    obtain ⟨rfl, hall⟩ := h
    obtain ⟨rfl, hescapes⟩ := hother
    refine .inr ⟨rfl, ?_⟩
    intro name fragment hget
    rw [Dict.get?_insert] at hget
    split at hget
    . cases hget
      exact hescapes
    . exact hall name fragment hget
  lost_later _ h _ := h
  lost_any _ h := h.elim

section

variable (hhelpers : engine.helpers = .builtIns) {resolvers : List (Resolver σ)} {given : Value → Prop}
  (hlambdas : ∀ value, Reached engine.host resolvers given value → engine.host.callable? value = none)
  (hloader : ∀ path template, engine.loadTemplate path = .ok template → Fragment.Escapes template.fragment)

theorem escaping_nodes {node : Node} (h : node.Escapes) :
    (escapingComparison hhelpers hlambdas hloader).Nodes node node := by
  have hrel {fragment : Option Fragment} (h : Fragment.AnyEscapes fragment) :
      Option.Rel (escapingComparison hhelpers hlambdas hloader).Fragments fragment fragment := by
    cases fragment with
    | none => exact .none
    | some fragment => exact .some ⟨rfl, h⟩
  cases node with
  | literal text => exact .literal (Text.escaped_of_plain h)
  | comment text => exact .comment text
  | «variable» call escape =>
    obtain ⟨rfl, hname⟩ := h
    exact .variable (.inr rfl) (.inr ⟨hname, .inl rfl⟩)
  | inclusion path => exact .inclusion path
  | block opening body inverse =>
    obtain ⟨hembed, hdate, hbody, hinverse⟩ := h
    exact .block (.inr ⟨hembed, .inr hdate⟩) (hrel hbody) (hrel hinverse)

theorem escaping_fragments {fragment : Fragment} (h : Fragment.Escapes fragment) :
    List.Forall₂ (escapingComparison hhelpers hlambdas hloader).Nodes fragment fragment := by
  induction fragment with
  | nil => exact .nil
  | cons node nodes ih => exact .cons (escaping_nodes hhelpers hlambdas hloader h.1) (ih h.2)

end

/--
The text of a template that escapes, as all templates that can be loaded do, means nothing in HTML but itself.
-/
theorem render_isEscaped (engine : Engine σ) (hhelpers : engine.helpers = .builtIns) {model : Value}
    (hlambdas : ∀ value, Reached engine.host engine.resolvers (· = model) value → engine.host.callable? value = none)
    {template : Template} (htemplate : Fragment.Escapes template.fragment)
    (hloader : ∀ path template, engine.loadTemplate path = .ok template → Fragment.Escapes template.fragment)
    (depth : Nat) (s : RenderState σ) {text : String} (h : (exec (engine.render depth template model) s).1 = .ok text) :
    Text.IsEscaped text := by
  let c := escapingComparison hhelpers hlambdas hloader
  have hlinked : c.Linked { s with partials := ∅ } { s with partials := ∅ } :=
    ⟨rfl, rfl, by rintro _ _ ⟨⟩⟩
  have hnodes (fragment other : Fragment) (h : c.Fragments fragment other) : List.Forall₂ c.Nodes fragment other := by
    obtain ⟨rfl, hescapes⟩ := h
    exact escaping_fragments hhelpers hlambdas hloader hescapes
  have hscope : (engine.rootScope model).Within c.toHorizon :=
    .root c.toHorizon (Reached.given rfl)
  have halike := (c.renderers_of_nodes hnodes depth).alike hscope ⟨rfl, htemplate⟩
  rcases halike.agree hlinked with hlost | ⟨-, hend⟩
  . cases hlost
  . replace h : (exec (capture (engine.renderer depth template.fragment (engine.rootScope model)))
        { s with partials := ∅ }).1 = .ok text := h
    rw [h] at hend
    cases hend with
    | ok htext => exact htext.2

theorem render_isEscaped_registered :
    let engine : Engine Unit := { inert with loader := .chain [] }
    let call (name : String) : Opening := ⟨{ name, params := [.str "p"] }, false, .standard⟩
    let fragment : Fragment :=
      [.block (call "partial") (some [.variable { name := "x" } .html]) none, .block (call "block") (some []) none]
    let rendered :=
      (exec (engine.render 3 { fragment, source := "" } (.map [("x", .string "<&")])) { host := () }).1
    rendered = .ok "&lt;&amp;" ∧ Text.IsEscaped "&lt;&amp;" := by
  intro engine call fragment rendered
  have hrendered : rendered = .ok "&lt;&amp;" := by decide +kernel
  have hescapes : Fragment.Escapes fragment := by
    simp [fragment, call, Fragment.Escapes, Node.Escapes, Fragment.AnyEscapes, BuiltIn.name]
  have hlambdas (value : Value) (hvalue : Reached engine.host engine.resolvers (· = .map [("x", .string "<&")]) value) :
      engine.host.callable? value = none := by
    apply Horizon.callable?_of_reached Host.inert_lambdaFree _ hvalue
    rintro _ rfl
    exact ⟨trivial, trivial⟩
  have hloader (path : String) (template : Template) (hload : engine.loadTemplate path = .ok template) :
      Fragment.Escapes template.fragment := by
    cases hload
  exact ⟨hrendered, render_isEscaped engine rfl hlambdas hescapes hloader 3 { host := () } hrendered⟩

end Engine
end Mustache
