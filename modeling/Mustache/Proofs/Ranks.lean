import Mathlib.Algebra.Order.BigOperators.Group.List
import Mathlib.Algebra.Order.Group.Nat
import Mathlib.Order.Filter.AtTopBot.Basic
import Mustache.Proofs.Filling
import Mustache.Proofs.Parts
import Mustache.Proofs.Scanning
import Mustache.Proofs.Walking

/-!
This module contains templates that show one another in the order of a rank. The main statement is that a render of
them ends, although fragments are registered on its way.
-/

namespace Mustache

open RenderM Limits Filter Source

variable {σ : Type}

namespace Node

def call? : Node → Option Call
  | .variable call _ => some call
  | .block opening _ _ => some opening.call
  | .literal _ | .comment _ | .inclusion _ => none

def reference? (node : Node) : Option String :=
  match node with
  | .inclusion path => some path
  | .literal _ | .comment _ | .variable .. | .block .. => node.call?.bind Call.blockPath?

def registration? : Node → Option (String × Fragment)
  | .block opening (some body) _ =>
    if opening.call.name = BuiltIn.registerBody.name then opening.call.target?.map (·, body) else none
  | .block _ none _ | .literal _ | .comment _ | .variable .. | .inclusion _ => none

end Node

theorem Call.blockPath?_eq {call : Call} (h : call.name = BuiltIn.block.name) : call.blockPath? = call.target? := by
  unfold blockPath? target?
  cases call.params with
  | nil => rfl
  | cons param params => cases param <;> simp only [h, if_true]

namespace Fragment

def references (fragment : Fragment) : List String :=
  (parts fragment).filterMap Node.reference?

/--
The calls that show or register something name it in their tags, and what is registered asks only for what is below it.
-/
structure Ranked (rank : String → Nat) (fragment : Fragment) : Prop where
  named : ∀ node ∈ parts fragment, ∀ call ∈ node.call?,
    call.name = BuiltIn.block.name ∨ call.name = BuiltIn.registerBody.name → call.target?.isSome
  registers : ∀ node ∈ parts fragment, ∀ entry ∈ node.registration?,
    ∀ name ∈ references entry.2, rank name < rank entry.1

instance (rank : String → Nat) (fragment : Fragment) : Decidable (Ranked rank fragment) :=
  decidable_of_iff (_ ∧ _) ⟨fun h => ⟨h.1, h.2⟩, fun h => ⟨h.named, h.registers⟩⟩

def Below (rank : String → Nat) (bound : Nat) (fragment : Fragment) : Prop :=
  ∀ name ∈ references fragment, rank name < bound

instance (rank : String → Nat) (bound : Nat) (fragment : Fragment) : Decidable (Below rank bound fragment) :=
  inferInstanceAs (Decidable (∀ name ∈ references fragment, rank name < bound))

variable {rank : String → Nat} {bound : Nat} {fragment other : Fragment}

theorem Ranked.mono (h : Ranked rank fragment) (hparts : parts other ⊆ parts fragment) : Ranked rank other where
  named node hnode := h.named node (hparts hnode)
  registers node hnode := h.registers node (hparts hnode)

theorem Below.mono (h : Below rank bound fragment) (hparts : parts other ⊆ parts fragment) :
    Below rank bound other := by
  intro name hname
  obtain ⟨node, hnode, href⟩ := List.mem_filterMap.1 hname
  exact h name (List.mem_filterMap.2 ⟨node, hparts hnode, href⟩)

theorem ranked_nil : Ranked rank [] :=
  ⟨by rintro _ ⟨⟩, by rintro _ ⟨⟩⟩

theorem below_nil : Below rank bound [] := by
  rintro _ ⟨⟩

theorem exists_below (rank : String → Nat) (fragment : Fragment) : ∃ bound, Below rank bound fragment := by
  refine ⟨((references fragment).map rank).sum + 1, ?_⟩
  intro name hname
  exact Nat.lt_succ_of_le (List.le_sum_of_mem (List.mem_map_of_mem hname))

end Fragment

theorem Limits.Settles.of_succ {α : Type} {c : Limits} {Q : α → Prop} {x : Nat → RenderM σ α}
    (h : c.Settles atTop Q fun i => x (i + 1)) : c.Settles atTop Q x := by
  intro s hs
  obtain ⟨result, t, hall, hrest⟩ := h s hs
  refine ⟨result, t, ?_, hrest⟩
  rw [← map_add_atTop_eq_nat 1]
  exact hall

namespace Engine

open Fragment

variable {engine : Engine σ} {rank : String → Nat} {model : Value}

def rankedRegime (hhelpers : engine.helpers = .builtIns)
    (hloaded : ∀ {path template}, engine.loadTemplate path = .ok template →
      Ranked rank template.fragment ∧ Below rank (rank path) template.fragment)
    (hlambdas : ∀ value, Reached engine.host engine.resolvers (· = model) value → engine.host.callable? value = none)
    (bound size : Nat) : Regime engine where
  toHorizon := .reached engine.host engine.resolvers (· = model)
  Registries registry := ∀ path fragment, registry.get? path = some fragment →
    Ranked rank fragment ∧ Below rank (rank path) fragment
  Fails e := e ≠ .tooDeep
  Inside fragment := fragment = [] ∨ Ranked rank fragment ∧
    ((∃ lower < bound, Below rank lower fragment) ∨ Below rank bound fragment ∧ (parts fragment).length < size)
  Shown path := rank path < bound
  Registered path fragment := Ranked rank fragment ∧ Below rank (rank path) fragment
  helpers_eq := hhelpers
  common _ := by simp
  registered hregistry hpath hget := by
    obtain ⟨hranked, hbelow⟩ := hregistry _ _ hget
    exact .inr ⟨hranked, .inl ⟨_, hpath, hbelow⟩⟩
  loaded hpath hload := by
    obtain ⟨hranked, hbelow⟩ := hloaded hload
    exact ⟨.inr ⟨hranked, .inl ⟨_, hpath, hbelow⟩⟩, hranked, hbelow⟩
  insert hregistry hnew path fragment hget := by
    rw [Dict.get?_insert] at hget
    split at hget
    next heq =>
      cases hget
      rwa [heq]
    . exact hregistry path fragment hget
  callable hvalue hcallable := by
    rw [hlambdas _ hvalue] at hcallable
    cases hcallable

section

variable (hhelpers : engine.helpers = .builtIns)
  (hloaded : ∀ {path template}, engine.loadTemplate path = .ok template →
    Ranked rank template.fragment ∧ Below rank (rank path) template.fragment)
  (hlambdas : ∀ value, Reached engine.host engine.resolvers (· = model) value → engine.host.callable? value = none)

theorem admits_of_ranked {bound size : Nat} {fragment : Fragment} (hranked : Ranked rank fragment)
    (hbelow : Below rank bound fragment) {node : Node} (hnode : node ∈ parts fragment) {call : Call}
    (hcall : node.call? = some call) (hreference : node.reference? = call.blockPath?) {body : Fragment}
    {inverse : Option Fragment} (hregistration : call.name = BuiltIn.registerBody.name → ∀ path,
      call.target? = some path → Ranked rank body ∧ Below rank (rank path) body)
    (hbody : (rankedRegime hhelpers hloaded hlambdas bound size).Inside body)
    (hinverse : ∀ fragment ∈ inverse, (rankedRegime hhelpers hloaded hlambdas bound size).Inside fragment) :
    (rankedRegime hhelpers hloaded hlambdas bound size).Admits call body inverse where
  shown {path} hname hpath := by
    obtain ⟨target, htarget⟩ := Option.isSome_iff_exists.1 (hranked.named node hnode call hcall (.inl hname))
    rw [hpath target htarget]
    apply hbelow
    refine List.mem_filterMap.2 ⟨node, hnode, ?_⟩
    rw [hreference, Call.blockPath?_eq hname, htarget]
  registered {path} hname hpath := by
    obtain ⟨target, htarget⟩ := Option.isSome_iff_exists.1 (hranked.named node hnode call hcall (.inr hname))
    rw [hpath target htarget]
    exact hregistration hname target htarget
  body := .inr hbody
  inverse := .inr hinverse

theorem permits_of_ranked {bound : Nat} {fragment : Fragment} (hranked : Ranked rank fragment)
    (hbelow : Below rank bound fragment) {node : Node} (hnode : node ∈ fragment) :
    (rankedRegime hhelpers hloaded hlambdas bound (parts fragment).length).Permits node := by
  have hpart := mem_parts hnode
  cases node with
  | literal => trivial
  | comment => trivial
  | «variable» call escape =>
    refine admits_of_ranked hhelpers hloaded hlambdas hranked hbelow hpart rfl rfl ?_ (.inl rfl) (by rintro _ ⟨⟩)
    intro _ path _
    exact ⟨ranked_nil, below_nil⟩
  | inclusion path => exact hbelow path (List.mem_filterMap.2 ⟨_, hpart, rfl⟩)
  | block opening body inverse =>
    cases body with
    | none =>
      change Failure.error _ ≠ _
      simp
    | some body =>
      obtain ⟨hbody, hless⟩ := parts_body hnode
      refine admits_of_ranked hhelpers hloaded hlambdas hranked hbelow hpart rfl rfl ?_
        (.inr ⟨hranked.mono hbody, .inr ⟨hbelow.mono hbody, hless⟩⟩) ?_
      . intro hname path hpath
        refine ⟨hranked.mono hbody, ?_⟩
        apply hranked.registers _ hpart (path, body)
        rw [Node.registration?, if_pos hname, hpath]
        rfl
      . rintro inverse rfl
        obtain ⟨hinverse, hless⟩ := parts_inverse hnode
        exact .inr ⟨hranked.mono hinverse, .inr ⟨hbelow.mono hinverse, hless⟩⟩

/--
A fragment that asks for what is below the bound settles as it is rendered deeper and deeper: what it asks for does for
a smaller bound, and the fragments inside of it do as they have less parts.
-/
theorem renderer_settles (bound : Nat) {fragment : Fragment} (hranked : Ranked rank fragment)
    (hbelow : Below rank bound fragment) {scope : Scope σ}
    (hscope : scope.Within (.reached engine.host engine.resolvers (· = model))) :
    (rankedRegime hhelpers hloaded hlambdas 0 0).Settles atTop (fun _ => True) fun depth =>
      engine.renderer depth fragment scope := by
  induction bound using Nat.strongRecOn generalizing fragment scope with
  | ind bound ihbound =>
    induction hsize : (parts fragment).length using Nat.strongRecOn generalizing fragment scope with
    | ind size ihsize =>
      subst hsize
      have hrenders : (rankedRegime hhelpers hloaded hlambdas bound (parts fragment).length).Renders atTop
          engine.renderer := by
        constructor
        rintro inner scope (rfl | ⟨hranked, ⟨lower, hlower, hbelow⟩ | ⟨hbelow, hless⟩⟩) hscope
        . exact .of_succ (.pure trivial)
        . exact ihbound lower hlower hranked hbelow hscope
        . exact ihsize _ hless hranked hbelow hscope rfl
      apply Settles.of_succ
      apply Regime.renderNodes_settles hrenders hscope
      intro node hnode
      exact permits_of_ranked hhelpers hloaded hlambdas hranked hbelow hnode

theorem ends_of_settles {α : Type} {x : Nat → RenderM σ α}
    (h : (rankedRegime hhelpers hloaded hlambdas 0 0).Settles atTop (fun _ => True) x) (s : RenderState σ) :
    ∃ depth, ∃ result : Except Error α, ∃ t,
      ∀ later ≥ depth, exec (isolated (x later)) s = (result.mapError .error, t) := by
  obtain ⟨result, t, hall, -, hend⟩ := h { s with partials := ∅ } (by rintro _ _ ⟨⟩)
  obtain ⟨depth, hdepth⟩ := eventually_atTop.1 hall
  have hresult : ∃ final : Except Error α, result = final.mapError .error := by
    cases hend with
    | @ok a _ => exact ⟨.ok a, rfl⟩
    | @error e he =>
      cases e with
      | error e => exact ⟨.error e, rfl⟩
      | tooDeep => exact absurd rfl he
  obtain ⟨final, rfl⟩ := hresult
  refine ⟨depth, final, { t with partials := s.partials }, ?_⟩
  intro later hlater
  rw [exec_isolated, hdepth later hlater]

end

theorem apply_run_isolated {depth : Nat} {template : Template} {sink : Sink} {s t : RenderState σ}
    {result : Except Failure Unit}
    (h : exec (isolated (engine.renderer depth template.fragment (engine.rootScope model) >>= fun _ => flush))
      { s with sink } = (result, t)) :
    (engine.apply depth template model sink).run s = ((result, t.sink), { t with sink := s.sink }) := by
  let final (run : Except Failure Unit × RenderState σ) : (Except Failure Unit × Sink) × RenderState σ :=
    ((run.1, run.2.sink), { run.2 with sink := s.sink })
  exact congrArg final h

/--
A render of ranked templates for a model without lambdas ends with a text or an error, into a sink, too: all depths
that are large enough give the same.
-/
theorem render_ends (engine : Engine σ) (hhelpers : engine.helpers = .builtIns) {rank : String → Nat}
    (hloaded : ∀ {path template}, engine.loadTemplate path = .ok template →
      Ranked rank template.fragment ∧ Below rank (rank path) template.fragment)
    {template : Template} (htemplate : Ranked rank template.fragment) {model : Value}
    (hlambdas : ∀ value, Reached engine.host engine.resolvers (· = model) value → engine.host.callable? value = none)
    (s : RenderState σ) :
    (∃ depth, ∃ result : Except Error String, ∃ t,
      ∀ later ≥ depth, exec (engine.render later template model) s = (result.mapError .error, t)) ∧
    ∀ sink : Sink, ∃ depth, ∃ result : Except Error Unit, ∃ taken t,
      ∀ later ≥ depth, (engine.apply later template model sink).run s = ((result.mapError .error, taken), t) := by
  obtain ⟨bound, hbelow⟩ := exists_below rank template.fragment
  have hscope : (engine.rootScope model).Within (.reached engine.host engine.resolvers (· = model)) :=
    .root (.reached engine.host engine.resolvers (· = model)) (Reached.given rfl)
  have hsettles := renderer_settles hhelpers hloaded hlambdas bound htemplate hbelow hscope
  refine ⟨ends_of_settles hhelpers hloaded hlambdas hsettles.capture s, ?_⟩
  intro sink
  have hflush : (rankedRegime hhelpers hloaded hlambdas 0 0).Settles atTop (fun _ => True) fun depth =>
      engine.renderer depth template.fragment (engine.rootScope model) >>= fun _ => flush :=
    hsettles.bind fun _ _ => Regime.flush_settles
  obtain ⟨depth, result, t, hall⟩ := ends_of_settles hhelpers hloaded hlambdas hflush { s with sink }
  refine ⟨depth, result, t.sink, { t with sink := s.sink }, ?_⟩
  intro later hlater
  exact apply_run_isolated (hall later hlater)

theorem render_ends_layout :
    let source := "\x7b\x7b#block \x22content\x22\x7d\x7d-\x7b\x7b/block\x7d\x7d"
    let load (path : String) : Except Error String :=
      if path = "layout" then .ok source else .error (.templateNotFound path)
    let engine : Engine Unit := { inert with loader := .source load }
    let rank (path : String) : Nat := if path = "layout" then 2 else if path = "content" then 1 else 0
    let layout : Template := ⟨[
      .block ⟨{ name := "block", params := [.str "content"] }, false, .standard⟩ (some [.literal "-"]) none], source,
      some "layout"⟩
    let page : Template := ⟨[
      .block ⟨{ name := "partial", params := [.str "content"] }, false, .standard⟩ (some [.inclusion "item"]) none,
      .inclusion "layout"], "", none⟩
    engine.loadTemplate "layout" = .ok layout ∧
      (Ranked rank layout.fragment ∧ Below rank (rank "layout") layout.fragment) ∧ Ranked rank page.fragment ∧
      ∃ depth, ∃ result : Except Error String, ∃ t,
        ∀ later ≥ depth, exec (engine.render later page .null) { host := () } = (result.mapError .error, t) := by
  intro source load engine rank layout page
  have hranked : Ranked rank layout.fragment ∧ Below rank (rank "layout") layout.fragment := by decide
  have hpage : Ranked rank page.fragment := by decide
  have hload : engine.loadTemplate "layout" = .ok layout := by
    have hpieces : (Scanner.start source.toList .standard).pieces = ([
        ⟨"\x7b\x7b#block \x22content\x22\x7d\x7d".toList, ⟨1, 1⟩, .standard,
          .tag .opening "block \x22content\x22".toList⟩,
        ⟨['-'], ⟨1, 21⟩, .standard, .text⟩,
        ⟨"\x7b\x7b/block\x7d\x7d".toList, ⟨1, 22⟩, .standard, .tag .closing "block".toList⟩], none) :=
      Scanner.pieces_of_within 4 (by decide)
    change Template.compile .standard source (some "layout") = _
    rw [Template.compile, parse, if_pos (by decide), hpieces]
    rfl
  have hloaded {path : String} {template : Template} (h : engine.loadTemplate path = .ok template) :
      Ranked rank template.fragment ∧ Below rank (rank path) template.fragment := by
    by_cases hpath : path = "layout"
    . subst hpath
      rw [hload] at h
      cases h
      exact hranked
    . have hfail : load path = .error (.templateNotFound path) := if_neg hpath
      change (load path >>= fun source => Template.compile .standard source (some path)) = _ at h
      rw [hfail] at h
      cases h
  have hlambdas (value : Value) (h : Reached engine.host engine.resolvers (· = .null) value) :
      engine.host.callable? value = none := by
    refine Horizon.callable?_of_reached Host.inert_lambdaFree ?_ h
    rintro _ rfl
    trivial
  obtain ⟨hends, -⟩ := render_ends engine rfl hloaded hpage hlambdas { host := () }
  exact ⟨hload, hranked, hpage, hends⟩

end Engine

end Mustache
