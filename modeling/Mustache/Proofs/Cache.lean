import Mustache.Proofs.Alike
import Mustache.Proofs.Scanning

/-!
This module contains the fragment that a block registers when nothing is registered under its path. The main statement
is that renders do not notice whether it is registered already.
-/

namespace Mustache

open RenderM Source

variable {σ : Type}

/--
The second registry may hold one more fragment than the first one, under the given path.
-/
structure RegisteredAhead (path : String) (fragment : Fragment) (first second : Dict Fragment) : Prop where
  others {name : String} : name ≠ path → second.get? name = first.get? name
  entry : second.get? path = first.get? path ∨ first.get? path = none ∧ second.get? path = some fragment

namespace RegisteredAhead

variable {path name : String} {fragment other : Fragment} {first second : Dict Fragment}

theorem of_get?_eq_none (h : first.get? path = none) :
    RegisteredAhead path fragment first (first.insert path fragment) where
  others hname := by rw [Dict.get?_insert, if_neg hname]
  entry := .inr ⟨h, by rw [Dict.get?_insert, if_pos rfl]⟩

theorem get?_eq (h : RegisteredAhead path fragment first second) (name : String) :
    second.get? name = first.get? name ∨
      name = path ∧ first.get? name = none ∧ second.get? name = some fragment := by
  by_cases hname : name = path
  . subst hname
    rcases h.entry with heq | hnew
    . exact .inl heq
    . exact .inr ⟨rfl, hnew⟩
  . exact .inl (h.others hname)

theorem insert (h : RegisteredAhead path fragment first second) :
    RegisteredAhead path fragment (first.insert name other) (second.insert name other) where
  others hname := by
    rw [Dict.get?_insert, Dict.get?_insert, h.others hname]
  entry := by
    rw [Dict.get?_insert, Dict.get?_insert]
    split
    . exact .inl rfl
    . exact h.entry

theorem insert_first (h : RegisteredAhead path fragment first second) (hnew : second.get? path = some fragment) :
    RegisteredAhead path fragment (first.insert path fragment) second where
  others hname := by rw [Dict.get?_insert, if_neg hname, h.others hname]
  entry := .inl (by rw [Dict.get?_insert, if_pos rfl, hnew])

theorem get?_insert (h : RegisteredAhead path fragment first second) (name : String) :
    (second.insert path other).get? name = (first.insert path other).get? name := by
  rw [Dict.get?_insert, Dict.get?_insert]
  split
  . rfl
  next hname => exact h.others hname

end RegisteredAhead

namespace Engine

variable {engine : Engine σ} {path : String} {template : Template}

def aheadComparison (hhelpers : engine.helpers = .builtIns) (hload : engine.loadTemplate path = .ok template)
    (resolvers : List (Resolver σ)) : Comparison engine where
  toHorizon := .all engine.host resolvers
  Fragments := Eq
  Registries := RegisteredAhead path template.fragment
  Shown _ := True
  Lost _ _ := False
  helpers_eq := hhelpers
  callable _ _ _ _ := Iff.rfl
  nothing := rfl
  shown_empty := trivial
  shown_append _ _ := trivial
  shown_escaped _ := trivial
  registered h hfirst := by
    rcases h.get?_eq _ with heq | ⟨-, hnone, -⟩
    . exact ⟨_, heq.trans hfirst, rfl⟩
    . cases hnone.symm.trans hfirst
  missing {_ _ name} h hfirst := by
    rcases h.get?_eq name with heq | ⟨rfl, -, hsecond⟩
    . exact .inl (heq.trans hfirst)
    . exact .inr ⟨template, _, hload, hsecond, rfl, h.insert_first hsecond⟩
  loaded _ := rfl
  insert _ _ _ h heq := by
    subst heq
    exact .inr h.insert
  lost_later _ h _ := h
  lost_any _ h := h.elim

theorem exec_register_section {engine : Engine σ} (hhelpers : engine.helpers = .builtIns) (depth : Nat)
    (scope : Scope σ) (path : String) (params : List Param) (hash : Dict Param) (inverted : Bool) (d : Delimiters)
    (body : Fragment) (inverse : Option Fragment) (s : RenderState σ) :
    exec (capture (engine.renderer (depth + 1)
        [.block ⟨{ name := "partial", params := .str path :: params, hash }, inverted, d⟩ (some body) inverse]
        scope)) s =
      (.ok "",
        { s with
          host := ((scope.evaluateHash hash).run ((scope.evaluateParams params).run s.host).2).2
          partials := s.partials.insert path body
          log := s.log ++ [.registering path] }) := by
  have hname : engine.helpers.get? "partial" = some (.builtIn .registerBody) := by
    rw [hhelpers]
    rfl
  rw [renderer_block, Walk.renderBlock_helper hname]
  rfl

/--
Whether a template that can be loaded is registered ahead makes no difference to a render and none that a section
`partial` leaves.
-/
theorem render_ahead (engine : Engine σ) (hhelpers : engine.helpers = .builtIns) {path : String} {template : Template}
    (hload : engine.loadTemplate path = .ok template) {registry : Dict Fragment} (hnew : registry.get? path = none)
    (depth : Nat) (fragment : Fragment) (scope : Scope σ) (s : RenderState σ) :
    let run (partials : Dict Fragment) := exec (capture (engine.renderer depth fragment scope)) { s with partials }
    let plain := run registry
    let ahead := run (registry.insert path template.fragment)
    ahead.1 = plain.1 ∧ ahead.2.host = plain.2.host ∧
    RegisteredAhead path template.fragment plain.2.partials ahead.2.partials ∧
    ∀ depth scope params hash inverted d body inverse,
      let opening : Opening := ⟨{ name := "partial", params := .str path :: params, hash }, inverted, d⟩
      let later (t : RenderState σ) :=
        exec (capture (engine.renderer (depth + 1) [.block opening (some body) inverse] scope)) t
      (later ahead.2).1 = (later plain.2).1 ∧ (later ahead.2).2.host = (later plain.2).2.host ∧
      (∀ name, (later ahead.2).2.partials.get? name = (later plain.2).2.partials.get? name) ∧
      (later plain.2).2.partials.get? path = some body := by
  intro run plain ahead
  let c := aheadComparison hhelpers hload scope.resolvers
  have hnodes (fragment other : Fragment) (h : fragment = other) : List.Forall₂ c.Nodes fragment other := by
    subst h
    exact List.forall₂_same.2 fun node _ => c.nodes_self (fun _ => trivial) (fun _ => rfl) node
  have hlinked : c.Linked { s with partials := registry }
      { s with partials := registry.insert path template.fragment } :=
    ⟨rfl, .of_get?_eq_none hnew⟩
  have hscope : scope.Within c.toHorizon := ⟨rfl, fun _ => trivial⟩
  have halike := (c.renderers_of_nodes hnodes depth).alike hscope (Eq.refl fragment)
  rcases halike.agree hlinked with hlost | ⟨⟨hhost, hregistries⟩, hend⟩
  . cases hlost
  . refine ⟨(hend.eq fun _ _ h => h.1).symm, hhost.symm, hregistries, ?_⟩
    intro depth scope params hash inverted d body inverse opening later
    have hlater (t : RenderState σ) :=
      exec_register_section hhelpers depth scope path params hash inverted d body inverse t
    have hplain : later plain.2 = _ := hlater plain.2
    have hahead : later ahead.2 = _ := hlater ahead.2
    rw [hplain, hahead]
    refine ⟨rfl, ?_, hregistries.get?_insert, ?_⟩
    . dsimp only
      rw [hhost]
    . rw [Dict.get?_insert, if_pos rfl]

theorem render_ahead_block :
    let engine : Engine Unit := { inert with loader := .ofMap (TemplateMap.insert {} "p" "x") }
    let opening : Opening := ⟨{ name := "block", params := [.str "p"] }, false, .standard⟩
    let run (partials : Dict Fragment) :=
      exec (capture (engine.renderer 2 [.block opening (some []) none] (engine.rootScope .null)))
        { host := (), partials }
    engine.loadTemplate "p" = .ok ⟨[.literal "x"], "x", some "p"⟩ ∧
      (run (.insert ∅ "p" [.literal "x"])).1 = .ok "x" ∧ (run ∅).1 = .ok "x" := by
  intro engine opening run
  let piece : Piece := ⟨['x'], .first, .standard, .text⟩
  have hpieces : (Scanner.start "x".toList .standard).pieces = ([piece], none) := Scanner.pieces_of_within 2 (by decide)
  have hparse : parse "x" .standard = .ok [.literal "x"] := by
    rw [parse, if_pos (by decide), hpieces]
    rfl
  have hload : engine.loadTemplate "p" = .ok ⟨[.literal "x"], "x", some "p"⟩ := by
    change Template.compile .standard "x" (some "p") = _
    rw [Template.compile, hparse]
    rfl
  have hahead : (run (.insert ∅ "p" [.literal "x"])).1 = .ok "x" := by rfl
  obtain ⟨hresult, -⟩ := render_ahead engine rfl hload (Dict.get?_empty "p") 2 [.block opening (some []) none]
    (engine.rootScope .null) { host := () }
  exact ⟨hload, hahead, hresult.symm.trans hahead⟩

end Engine

end Mustache
