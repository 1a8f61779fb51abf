import Mustache.Proofs.Walking
import Mustache.Proofs.WellFormed

/-!
This module contains renders of templates that were read from sources. The main statement is that none of them comes
across a section without a body.
-/

namespace Mustache

open RenderM Limits Source

variable {σ : Type}

namespace Walk

variable (w : Walk σ) (alarm : String → Failure) (scope : Scope σ)

def watchNode : Node → RenderM σ Unit
  | .block opening none _ => throw (alarm opening.call.name)
  | node => w.renderNode scope node

def watchNodes : Fragment → RenderM σ Unit
  | [] => return ()
  | node :: nodes => do
    watchNode w alarm scope node
    watchNodes nodes

end Walk

namespace Engine

/--
Renders fragments as the engine does, with another failure in the place of the one for a section without a body.
-/
def watched (engine : Engine σ) (alarm : String → Failure) : (depth : Nat) → Renderer σ
  | 0 => fun _ _ => throw .tooDeep
  | depth + 1 => fun fragment scope =>
    { engine, renderer := watched engine alarm depth : Walk σ }.watchNodes alarm scope fragment

theorem watched_missingBody (engine : Engine σ) (depth : Nat) :
    engine.watched (fun name => .error (.missingBody name)) depth = engine.renderer depth := by
  induction depth with
  | zero => rfl
  | succ depth ih =>
    funext fragment scope
    unfold watched renderer
    rw [ih]
    induction fragment with
    | nil => rfl
    | cons node nodes ihnodes =>
      unfold Walk.watchNodes Walk.renderNodes
      rw [ihnodes]
      congr 1
      unfold Walk.watchNode
      split <;> rfl

end Engine

def Fragment.Bodied (fragment : Fragment) : Prop :=
  ∀ opening inverse, .block opening none inverse ∉ Fragment.parts fragment

theorem Fragment.Bodied.mono {fragment other : Fragment} (h : Bodied fragment)
    (hparts : Fragment.parts other ⊆ Fragment.parts fragment) : Bodied other :=
  fun opening inverse hnode => h opening inverse (hparts hnode)

theorem bodied_of_parse {source : String} {d : Delimiters} {f : Fragment} (h : parse source d = .ok f) :
    Fragment.Bodied f := by
  intro opening inverse hnode
  obtain ⟨hbody, -⟩ := wellFormed_of_parse h _ hnode
  cases hbody

theorem bodied_of_compile {d : Delimiters} {source : String} {name : Option String} {template : Template}
    (h : Template.compile d source name = .ok template) : Fragment.Bodied template.fragment :=
  bodied_of_parse (Template.parse_eq_ok h)

theorem Settings.bodied_of_load {settings : Settings σ} {path : String} {template : Template}
    (h : settings.loadTemplate path = .ok template) : Fragment.Bodied template.fragment := by
  unfold loadTemplate at h
  cases hload : settings.loader.load path with
  | error e =>
    rw [hload] at h
    cases h
  | ok source =>
    rw [hload] at h
    exact bodied_of_compile h

/--
Something that can be called answers this error itself.
-/
def Host.Raises (host : Host σ) (e : Error) : Prop :=
  ∃ value callable scope text state, host.callable? value = some callable ∧
    ((callable scope text).run.run state).1 = .error e

namespace Engine

open Fragment

variable {engine : Engine σ}

def bodiedRegime (hhelpers : engine.helpers = .builtIns) (resolvers : List (Resolver σ)) : Regime engine where
  toHorizon := .all engine.host resolvers
  Registries registry := ∀ path fragment, registry.get? path = some fragment → Bodied fragment
  Fails e := ∀ name, e = .error (.missingBody name) → engine.host.Raises (.missingBody name)
  Inside := Bodied
  Shown _ := True
  Registered _ := Bodied
  helpers_eq := hhelpers
  common hcommon name heq := by
    cases heq
    exact absurd rfl (hcommon name)
  registered hregistry _ hget := hregistry _ _ hget
  loaded _ hload := ⟨Settings.bodied_of_load hload, Settings.bodied_of_load hload⟩
  insert hregistry hnew path fragment hget := by
    rw [Dict.get?_insert] at hget
    split at hget
    . cases hget
      exact hnew
    . exact hregistry path fragment hget
  callable {value callable} _ hcallable := by
    refine ⟨fun scope text => ⟨?_⟩, bodied_of_compile, ?_⟩
    . rintro state e he name ⟨⟩
      exact ⟨value, callable, scope, text, state, hcallable, he⟩
    . rintro text opening inverse hnode
      cases List.mem_singleton.1 hnode

theorem watchNodes_eq {w : Walk σ} {alarm : String → Failure} {scope : Scope σ} {fragment : Fragment}
    (h : Bodied fragment) : w.watchNodes alarm scope fragment = w.renderNodes scope fragment := by
  induction fragment with
  | nil => rfl
  | cons node nodes ih =>
    have hnodes : Bodied nodes := h.mono (List.subset_append_right ..)
    have hnode : w.watchNode alarm scope node = w.renderNode scope node := by
      unfold Walk.watchNode
      split
      next opening inverse => exact absurd (mem_parts List.mem_cons_self) (h opening inverse)
      next => rfl
    unfold Walk.watchNodes Walk.renderNodes
    rw [hnode, ih hnodes]

section

variable (hhelpers : engine.helpers = .builtIns)

theorem permits_of_bodied {resolvers : List (Resolver σ)} {fragment : Fragment} (h : Bodied fragment) {node : Node}
    (hnode : node ∈ fragment) : (bodiedRegime hhelpers resolvers).Permits node := by
  have hadmits {call : Call} {body : Fragment} {inverse : Option Fragment} (hbody : Bodied body)
      (hinverse : ∀ fragment ∈ inverse, Bodied fragment) :
      (bodiedRegime hhelpers resolvers).Admits call body inverse :=
    ⟨fun _ _ => trivial, fun _ _ => hbody, .inr hbody, .inr hinverse⟩
  cases node with
  | literal => trivial
  | comment => trivial
  | «variable» => exact hadmits (by rintro _ _ ⟨⟩) (by rintro _ ⟨⟩)
  | inclusion => trivial
  | block opening body inverse =>
    cases body with
    | none => exact absurd (mem_parts hnode) (h opening inverse)
    | some body =>
      refine hadmits (h.mono (parts_body hnode).1) ?_
      rintro inverse rfl
      exact h.mono (parts_inverse hnode).1

theorem watched_settles {resolvers : List (Resolver σ)} (depth : Nat) {fragment : Fragment} (h : Bodied fragment)
    {scope : Scope σ} (hscope : scope.Within (.all engine.host resolvers)) :
    (bodiedRegime hhelpers resolvers).Settles ⊤ (fun _ => True) fun alarm =>
      engine.watched alarm depth fragment scope := by
  induction depth generalizing fragment scope with
  | zero => exact .throw (by rintro name ⟨⟩)
  | succ depth ih =>
    have hrenders : (bodiedRegime hhelpers resolvers).Renders ⊤ fun alarm => engine.watched alarm depth :=
      ⟨fun hfragment hscope => ih hfragment hscope⟩
    have hnodes := Regime.renderNodes_settles hrenders hscope fun node hnode => permits_of_bodied hhelpers h hnode
    exact hnodes.congr (.of_forall fun alarm => watchNodes_eq h)

include hhelpers in
theorem exec_watched {fragment : Fragment} (h : Bodied fragment) (depth : Nat) (scope : Scope σ) {s : RenderState σ}
    (hs : s.partials = ∅) (alarm : String → Failure) :
    exec (engine.watched alarm depth fragment scope) s = exec (engine.renderer depth fragment scope) s := by
  have hscope : scope.Within (.all engine.host scope.resolvers) := ⟨rfl, fun _ => trivial⟩
  obtain ⟨result, t, hall, -⟩ := watched_settles hhelpers depth h hscope s (by rw [hs]; rintro _ _ ⟨⟩)
  rw [Filter.eventually_top] at hall
  rw [hall alarm, ← watched_missingBody, hall]

theorem raises_of_settles {α ι : Type} {resolvers : List (Resolver σ)} {x : ι → RenderM σ α}
    (h : (bodiedRegime hhelpers resolvers).Settles ⊤ (fun _ => True) x) (i : ι) {s : RenderState σ} {name : String}
    (hname : (exec (isolated (x i)) s).1 = .error (.error (.missingBody name))) :
    engine.host.Raises (.missingBody name) := by
  obtain ⟨result, t, hall, -, hend⟩ := h { s with partials := ∅ } (by rintro _ _ ⟨⟩)
  rw [Filter.eventually_top] at hall
  rw [exec_isolated, hall i] at hname
  dsimp only at hname
  subst hname
  cases hend with
  | error he => exact he name rfl

end

end Engine

/--
The sections of a tree that is read from a source have bodies, and all names and texts in it are as they should be. A
source is refused only for a fault at one of its places. So renders with the helpers that come with every engine never
come across a section without a body: another failure in the place of that error makes no difference to any of them,
and none ends with it, unless something that is called answers it.
-/
theorem sections_bodied :
    (∀ {source d f}, parse source d = .ok f → ∀ node ∈ Fragment.parts f, node.WellFormed) ∧
    (∀ {source d e}, parse source d = .error e → e.Placed) ∧
    ∀ {σ : Type} (engine : Engine σ), engine.helpers = .builtIns → ∀ {d source name template},
      Template.compile d source name = .ok template → ∀ depth model (s : RenderState σ),
        (∀ alarm,
          exec (engine.watched alarm depth template.fragment (engine.rootScope model)) { s with partials := ∅ } =
            exec (engine.renderer depth template.fragment (engine.rootScope model)) { s with partials := ∅ }) ∧
        ∀ name, (exec (engine.render depth template model) s).1 = .error (.error (.missingBody name)) ∨
            (∃ sink, ((engine.apply depth template model sink).run s).1.1 = .error (.error (.missingBody name))) →
          engine.host.Raises (.missingBody name) := by
  refine ⟨wellFormed_of_parse, parse_placed, ?_⟩
  intro σ engine hhelpers d source name template hcompile depth model s
  have hbodied := bodied_of_compile hcompile
  have hscope : (engine.rootScope model).Within (.all engine.host engine.resolvers) := ⟨rfl, fun _ => trivial⟩
  have hsettles := Engine.watched_settles hhelpers depth hbodied hscope
  refine ⟨Engine.exec_watched hhelpers hbodied depth _ rfl, ?_⟩
  rintro name (hname | ⟨sink, hname⟩)
  . apply Engine.raises_of_settles hhelpers hsettles.capture fun name => .error (.missingBody name)
    rw [Engine.watched_missingBody]
    exact hname
  . have hflush : (Engine.bodiedRegime hhelpers engine.resolvers).Settles ⊤ (fun _ => True) fun alarm =>
        engine.watched alarm depth template.fragment (engine.rootScope model) >>= fun _ => flush :=
      hsettles.bind fun _ _ => Regime.flush_settles
    apply Engine.raises_of_settles hhelpers hflush fun name => .error (.missingBody name)
    rw [Engine.watched_missingBody]
    exact hname

theorem sections_bodied_raised :
    let source := "\x7b\x7b#f\x7d\x7dx\x7b\x7b/f\x7d\x7d"
    let fragment : Fragment := [.block ⟨{ name := "f" }, false, .standard⟩ (some [.literal "x"]) none]
    let host : Host Unit := { Host.inert with callable := fun _ _ _ => throw (.missingBody "f") }
    let engine : Engine Unit := { Engine.inert with host }
    let template : Template := ⟨fragment, source, none⟩
    let model : Value := .map [("f", .lambda 0)]
    let fault : SyntaxError := .malformed ⟨1, 1⟩ (.unexpectedClosing "f")
    (parse source = .ok fragment ∧ ∀ node ∈ Fragment.parts fragment, node.WellFormed) ∧
      (parse "\x7b\x7b/f\x7d\x7d" = .error fault ∧ fault.Placed) ∧
      (∀ alarm, exec (engine.watched alarm 2 fragment (engine.rootScope model)) { host := () } =
        exec (engine.renderer 2 fragment (engine.rootScope model)) { host := () }) ∧
      (exec (engine.render 2 template model) { host := () }).1 = .error (.error (.missingBody "f")) ∧
      host.Raises (.missingBody "f") := by
  intro source fragment host engine template model fault
  have hpieces : (Scanner.start source.toList .standard).pieces = ([
      ⟨"\x7b\x7b#f\x7d\x7d".toList, ⟨1, 1⟩, .standard, .tag .opening ['f']⟩, ⟨['x'], ⟨1, 7⟩, .standard, .text⟩,
      ⟨"\x7b\x7b/f\x7d\x7d".toList, ⟨1, 8⟩, .standard, .tag .closing ['f']⟩], none) :=
    Scanner.pieces_of_within 4 (by decide)
  have hparse : parse source = .ok fragment := by
    rw [parse, if_pos (by decide), hpieces]
    rfl
  have hfault : parse "\x7b\x7b/f\x7d\x7d" = .error fault := by
    have hclosing : (Scanner.start "\x7b\x7b/f\x7d\x7d".toList .standard).pieces =
        ([⟨"\x7b\x7b/f\x7d\x7d".toList, ⟨1, 1⟩, .standard, .tag .closing ['f']⟩], none) :=
      Scanner.pieces_of_within 2 (by decide)
    rw [parse, if_pos (by decide), hclosing]
    rfl
  have hcompile : Template.compile .standard source = .ok template := by
    rw [Template.compile, hparse]
    rfl
  obtain ⟨hwellFormed, hplaced, hrenders⟩ := sections_bodied
  obtain ⟨hwatched, hraises⟩ := hrenders engine rfl hcompile 2 model { host := () }
  have hrender : (exec (engine.render 2 template model) { host := () }).1 = .error (.error (.missingBody "f")) := by rfl
  exact ⟨⟨hparse, hwellFormed hparse⟩, ⟨hfault, hplaced hfault⟩, hwatched, hrender, hraises "f" (.inl hrender)⟩

end Mustache
