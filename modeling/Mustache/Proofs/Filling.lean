import Mustache.Proofs.Alike

/-!
This module contains layouts: fragments with places for others that are registered. The main statement is that a layout
is rendered as if the fragments stood in those places.
-/

namespace Mustache

open RenderM

variable {σ : Type}

def Call.blockPath? (call : Call) : Option String :=
  match call.params with
  | .str path :: _ => if call.name = BuiltIn.block.name then some path else none
  | _ => none

theorem Call.of_blockPath? {call : Call} {path : String} (h : call.blockPath? = some path) :
    call.name = BuiltIn.block.name ∧ ∃ params, call.params = .str path :: params := by
  unfold blockPath? at h
  split at h
  next params hparams =>
    split at h
    next hname =>
      cases h
      exact ⟨hname, params, hparams⟩
    . cases h
  . cases h

mutual

/--
The node with the fragments of a registry in place of the sections and tags that show them.
-/
def Node.fill (registry : Dict Fragment) : Node → Fragment
  | .literal text => [.literal text]
  | .comment text => [.comment text]
  | .variable call escape => [.variable call escape]
  | .inclusion path => (registry.get? path).getD [.inclusion path]
  | .block opening body inverse =>
    match opening.call.blockPath?.bind registry.get? with
    | some fragment => fragment
    | none => [.block opening (Fragment.fillAny registry body) (Fragment.fillAny registry inverse)]

def Fragment.fill (registry : Dict Fragment) : List Node → Fragment
  | [] => []
  | node :: nodes => node.fill registry ++ Fragment.fill registry nodes

def Fragment.fillAny (registry : Dict Fragment) : Option (List Node) → Option Fragment
  | none => none
  | some fragment => some (Fragment.fill registry fragment)

end

mutual

/--
The sections in whose place others can stand have a body, and what they are called with is `silent`.
-/
def Node.Fillable (registry : Dict Fragment) (silent : Call → Prop) : Node → Prop
  | .literal _ | .comment _ | .variable _ _ | .inclusion _ => True
  | .block opening body inverse =>
    match opening.call.blockPath?.bind registry.get? with
    | some _ => body.isSome ∧ silent opening.call
    | none => Fragment.AnyFillable registry silent body ∧ Fragment.AnyFillable registry silent inverse

def Fragment.Fillable (registry : Dict Fragment) (silent : Call → Prop) : List Node → Prop
  | [] => True
  | node :: nodes => node.Fillable registry silent ∧ Fragment.Fillable registry silent nodes

def Fragment.AnyFillable (registry : Dict Fragment) (silent : Call → Prop) : Option (List Node) → Prop
  | none => True
  | some fragment => Fragment.Fillable registry silent fragment

end

/--
Looking up the arguments leaves no trace in the host.
-/
def Call.Silent {host : Host σ} (horizon : Horizon host) (call : Call) : Prop :=
  ∀ scope : Scope σ, scope.Within horizon → call.SilentIn scope scope

namespace Walk

variable {w : Walk σ} {scope : Scope σ}

theorem renderNodes_cons (node : Node) (nodes : Fragment) :
    w.renderNodes scope (node :: nodes) = w.renderNode scope node >>= fun _ => w.renderNodes scope nodes := rfl

theorem renderNodes_singleton (node : Node) : w.renderNodes scope [node] = w.renderNode scope node :=
  bind_pure _

theorem renderNodes_append (fragment rest : Fragment) :
    w.renderNodes scope (fragment ++ rest) = w.renderNodes scope fragment >>= fun _ => w.renderNodes scope rest := by
  induction fragment with
  | nil => rfl
  | cons node nodes ih => rw [List.cons_append, renderNodes_cons, renderNodes_cons, ih, bind_assoc]

theorem exec_inclusion {path : String} {fragment : Fragment} {s : RenderState σ}
    (h : s.partials.get? path = some fragment) :
    exec (capture (w.renderInclusion scope path)) s = exec (capture (w.renderer fragment scope)) s := by
  have hfound : exec (w.includedFragment path) s = (.ok fragment, s) := by
    rw [exec_includedFragment, h]
  rw [renderInclusion_eq, includedFragment_quiet.capture_bind, exec_bind hfound]

theorem exec_block (hhelpers : w.engine.helpers = .builtIns) {opening : Opening} {path : String}
    (hpath : opening.call.blockPath? = some path) {fragment : Fragment} {s : RenderState σ}
    (hfragment : s.partials.get? path = some fragment)
    (hsilent : opening.call.SilentIn scope scope) (body : Fragment) (inverse : Option Fragment) :
    exec (capture (w.renderBlock scope opening (some body) inverse)) s =
      exec (capture (w.renderer fragment scope)) s := by
  obtain ⟨hname, params, hparams⟩ := Call.of_blockPath? hpath
  have hhelper : w.engine.helpers.get? opening.call.name = some (.builtIn .block) := by
    rw [hhelpers, hname]
    rfl
  have hcall : exec (callHelper (.builtIn .block) opening.call { w.invocation scope with body, inverse }) s =
      exec (capture (w.renderer fragment scope) >>= fun text => pure (some (.text text))) s := by
    obtain ⟨values, h₁, hvalues⟩ : ∃ values h₁,
        (scope.evaluateParams opening.call.params).run s.host = (.string path :: values, h₁) := by
      rw [hparams]
      exact ⟨_, _, rfl⟩
    obtain ⟨hash, hhash⟩ : ∃ hash, (scope.evaluateHash opening.call.hash).run h₁ = (hash, s.host) := by
      have hstate := hsilent s.host
      rw [hvalues] at hstate
      exact ⟨_, Prod.ext rfl hstate⟩
    unfold callHelper
    dsimp only [invocation]
    rw [exec_bind (exec_ofHost hvalues), exec_bind (exec_ofHost hhash)]
    let inv : Invocation σ := { w.invocation scope with body, inverse, params := values, hash }
    have hfound : exec (BuiltIn.blockFragment path inv) s = (.ok fragment, s) := by
      rw [BuiltIn.exec_blockFragment, hfragment]
    change exec ((BuiltIn.blockFragment path inv >>= fun fragment => capture (w.renderer fragment scope)) >>=
      fun text => pure (some (Output.text text))) s = _
    rw [bind_assoc, exec_bind hfound]
  rw [renderBlock_helper hhelper, Comparison.capture_output callBuiltIn_quiet, exec_bind_congr hcall]
  exact congrArg (exec · s) (Comparison.text_written _)

end Walk

structure Stocked (Fragments : Fragment → Fragment → Prop) (registry first second : Dict Fragment) : Prop where
  given {name : String} {fragment : Fragment} : registry.get? name = some fragment →
    first.get? name = some fragment ∧ second.get? name = some fragment
  all (name : String) : Option.Rel Fragments (first.get? name) (second.get? name)

namespace Stocked

variable {Fragments : Fragment → Fragment → Prop} {registry first second : Dict Fragment} {path : String}

theorem refl (hrefl : ∀ fragment, Fragments fragment fragment) : Stocked Fragments registry registry registry where
  given h := ⟨h, h⟩
  all name := by
    cases registry.get? name with
    | none => exact .none
    | some fragment => exact .some (hrefl fragment)

theorem exists_of_get? (h : Stocked Fragments registry first second) {fragment : Fragment}
    (hfirst : first.get? path = some fragment) :
    ∃ other, second.get? path = some other ∧ Fragments fragment other := by
  have hrel := h.all path
  rw [hfirst] at hrel
  generalize second.get? path = found at hrel ⊢
  cases hrel with
  | some hother => exact ⟨_, rfl, hother⟩

theorem get?_eq_none (h : Stocked Fragments registry first second) (hfirst : first.get? path = none) :
    second.get? path = none := by
  have hrel := h.all path
  rw [hfirst] at hrel
  generalize second.get? path = found at hrel ⊢
  cases hrel with
  | none => rfl

theorem insert (h : Stocked Fragments registry first second) (hpath : registry.get? path = none)
    {fragment other : Fragment} (hother : Fragments fragment other) :
    Stocked Fragments registry (first.insert path fragment) (second.insert path other) where
  given {name given} hgiven := by
    have hname : name ≠ path := by
      rintro rfl
      cases hpath.symm.trans hgiven
    rw [Dict.get?_insert, Dict.get?_insert, if_neg hname, if_neg hname]
    exact h.given hgiven
  all name := by
    rw [Dict.get?_insert, Dict.get?_insert]
    split
    . exact .some hother
    . exact h.all name

end Stocked

namespace Engine

variable {engine : Engine σ}

def FilledIn (engine : Engine σ) (resolvers : List (Resolver σ)) (given : Value → Prop) (registry : Dict Fragment)
    (fragment other : Fragment) : Prop :=
  fragment = other ∨
    Fragment.Fillable registry (Call.Silent (.reached engine.host resolvers given)) fragment ∧
      other = Fragment.fill registry fragment

def fillingComparison (hhelpers : engine.helpers = .builtIns) {resolvers : List (Resolver σ)} {given : Value → Prop}
    (hlambdas : ∀ value, Reached engine.host resolvers given value → engine.host.callable? value = none)
    (registry : Dict Fragment) : Comparison engine where
  toHorizon := .reached engine.host resolvers given
  Fragments := engine.FilledIn resolvers given registry
  Registries := Stocked (engine.FilledIn resolvers given registry) registry
  Shown _ := True
  Lost e log := e = some .tooDeep ∨ ∃ name, (registry.get? name).isSome ∧ .registering name ∈ log
  helpers_eq := hhelpers
  callable hvalue hcallable := by
    rw [hlambdas _ hvalue] at hcallable
    cases hcallable
  nothing := .inl rfl
  shown_empty := trivial
  shown_append _ _ := trivial
  shown_escaped _ := trivial
  registered h hfirst := h.exists_of_get? hfirst
  missing h hfirst := .inl (h.get?_eq_none hfirst)
  loaded _ := .inl rfl
  insert path _ _ h hother := by
    cases hpath : registry.get? path with
    | none => exact .inr (h.insert hpath hother)
    | some fragment =>
      refine .inl fun log => .inr ⟨path, ?_, List.mem_concat_self⟩
      rw [hpath]
      rfl
  lost_later e h hlater := by
    rcases h with h | ⟨name, hname, hmem⟩
    . cases h
    . exact .inr ⟨name, hname, hlater.subset hmem⟩
  lost_any fragment _ := ⟨fragment, .inl rfl⟩

section

variable (hhelpers : engine.helpers = .builtIns) {resolvers : List (Resolver σ)} {given : Value → Prop}
  (hlambdas : ∀ value, Reached engine.host resolvers given value → engine.host.callable? value = none)
  {registry : Dict Fragment} {scope : Scope σ}

variable {depth later : Nat}
  (hsame : (fillingComparison hhelpers hlambdas registry).Renderers (engine.renderer depth) (engine.renderer later))
  (hdeeper :
    (fillingComparison hhelpers hlambdas registry).Renderers (engine.renderer depth) (engine.renderer (later + 1)))
  (hscope : scope.Within (.reached engine.host resolvers given))
include hsame hdeeper hscope

theorem filled_node {node : Node}
    (h : node.Fillable registry (Call.Silent (.reached engine.host resolvers given))) :
    let c := fillingComparison hhelpers hlambdas registry
    c.Alike c.SameText (capture (Walk.renderNode ⟨engine, engine.renderer depth⟩ scope node))
      (capture (Walk.renderNodes ⟨engine, engine.renderer later⟩ scope (node.fill registry))) := by
  intro c
  have hkept {other : Node} (hfill : node.fill registry = [other]) (hnodes : c.Nodes node other) :
      c.Alike c.SameText (capture (Walk.renderNode ⟨engine, engine.renderer depth⟩ scope node))
        (capture (Walk.renderNodes ⟨engine, engine.renderer later⟩ scope (node.fill registry))) := by
    rw [hfill, Walk.renderNodes_singleton]
    exact Comparison.renderNode_alike hsame hscope hnodes
  have hself : c.Nodes node node := c.nodes_self (fun _ => trivial) (fun _ => .inl rfl) node
  -- in the place of the node the second render goes one level less deep
  have hplaced {path : String} {fragment : Fragment} (hpath : registry.get? path = some fragment)
      (hfill : node.fill registry = fragment)
      (hexec : ∀ s : RenderState σ, s.partials.get? path = some fragment →
        exec (capture (Walk.renderNode ⟨engine, engine.renderer depth⟩ scope node)) s =
          exec (capture (engine.renderer depth fragment scope)) s) :
      c.Alike c.SameText (capture (Walk.renderNode ⟨engine, engine.renderer depth⟩ scope node))
        (capture (Walk.renderNodes ⟨engine, engine.renderer later⟩ scope (node.fill registry))) := by
    refine ⟨?_, (Comparison.renderNode_alike hsame hscope hself).lost⟩
    intro s t hlinked
    rw [hexec s (hlinked.registries.given hpath).1, hfill]
    exact (hdeeper.alike hscope (.inl rfl)).agree hlinked
  cases node with
  | literal text => exact hkept (by simp [Node.fill]) hself
  | comment text => exact hkept (by simp [Node.fill]) hself
  | «variable» call escape => exact hkept (by simp [Node.fill]) hself
  | inclusion path =>
    cases hpath : registry.get? path with
    | none => exact hkept (by simp [Node.fill, hpath]) hself
    | some fragment =>
      apply hplaced hpath (by simp [Node.fill, hpath])
      intro s hs
      exact Walk.exec_inclusion hs
  | block opening body inverse =>
    unfold Node.Fillable at h
    cases hplace : opening.call.blockPath?.bind registry.get? with
    | none =>
      rw [hplace] at h
      have hrel {inner : Option Fragment}
          (h : Fragment.AnyFillable registry (Call.Silent (.reached engine.host resolvers given)) inner) :
          Option.Rel c.Fragments inner (Fragment.fillAny registry inner) := by
        cases inner with
        | none => exact .none
        | some inner => exact .some (.inr ⟨h, rfl⟩)
      exact hkept (by simp [Node.fill, hplace]) (.block (.inl fun _ => trivial) (hrel h.1) (hrel h.2))
    | some fragment =>
      rw [hplace] at h
      obtain ⟨hbody, hsilent⟩ := h
      obtain ⟨path, hname, hpath⟩ := Option.bind_eq_some_iff.1 hplace
      obtain ⟨body, rfl⟩ := Option.isSome_iff_exists.1 hbody
      apply hplaced hpath (by simp [Node.fill, hplace])
      intro s hs
      exact Walk.exec_block hhelpers hname hs (hsilent scope hscope) body inverse

theorem filled_nodes {fragment : Fragment}
    (h : Fragment.Fillable registry (Call.Silent (.reached engine.host resolvers given)) fragment) :
    let c := fillingComparison hhelpers hlambdas registry
    c.Alike c.SameText (capture (Walk.renderNodes ⟨engine, engine.renderer depth⟩ scope fragment))
      (capture (Walk.renderNodes ⟨engine, engine.renderer later⟩ scope (Fragment.fill registry fragment))) := by
  intro c
  have hquiet := c.helpers_quiet
  induction fragment with
  | nil => exact .pure ⟨rfl, trivial⟩
  | cons node nodes ih =>
    have hnode := filled_node hhelpers hlambdas hsame hdeeper hscope h.1
    unfold Fragment.fill
    rw [Walk.renderNodes_cons, Walk.renderNodes_append,
      (Walk.renderNode_streams hquiet hsame.first_streams _).capture_append
        (Walk.renderNodes_streams hquiet hsame.first_streams),
      (Walk.renderNodes_streams hquiet hsame.second_streams).capture_append
        (Walk.renderNodes_streams hquiet hsame.second_streams)]
    exact Comparison.append_alike hnode (ih h.2)

omit hsame hdeeper hscope

theorem filling_renderers (depth : Nat) : ∀ later ≥ depth,
    (fillingComparison hhelpers hlambdas registry).Renderers (engine.renderer depth) (engine.renderer later) := by
  induction depth with
  | zero =>
    intro later _
    apply Comparison.renderers_of_alike
    intro scope fragment other _ _
    apply Comparison.Alike.throw_lost
    intro log
    exact .inl rfl
  | succ depth ih =>
    intro later hlater
    cases later with
    | zero => omega
    | succ later =>
      have hsame := ih later (by omega)
      have hdeeper := ih (later + 1) (by omega)
      apply Comparison.renderers_of_alike
      intro scope fragment other hscope hother
      rcases hother with rfl | ⟨hfillable, rfl⟩
      . apply Comparison.renderNodes_alike hsame hscope
        apply List.forall₂_same.2
        intro node _
        apply Comparison.nodes_self
        . exact fun _ => trivial
        . exact fun _ => .inl rfl
      . exact filled_nodes hhelpers hlambdas hsame hdeeper hscope hfillable

end

def renderFrom (engine : Engine σ) (registry : Dict Fragment) (scope : Scope σ) (host : σ) (depth : Nat)
    (fragment : Fragment) : Except Failure String × RenderState σ :=
  exec (capture (engine.renderer depth fragment scope)) { host, partials := registry }

end Engine

end Mustache
