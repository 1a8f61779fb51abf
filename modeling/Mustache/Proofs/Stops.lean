import Mathlib.Data.List.Basic
import Mustache.Proofs.Filling

/-!
This module contains what a render that fails leaves in the sink. The main statement is that these are the texts of
the nodes before the one that fails, where a tag that includes a fragment counts as the nodes of the fragment, and that
the node that fails leaves nothing.
-/

namespace Mustache

open RenderM

variable {σ α : Type}

theorem Sink.push_of_unlimited {s : Sink} (h : s.room = none) (text : String) :
    s.push text = { s with written := s.written ++ text } := by
  simp [push, h]

theorem Sink.room_push_of_unlimited {s : Sink} (h : s.room = none) (text : String) : (s.push text).room = none := by
  simp [push, h]

namespace RenderM

variable {x y : RenderM σ Unit} {s t : RenderState σ} {sink : Sink} {e : Failure}

/--
A part of a render that works out all of its text before it writes any of it.
-/
def Whole (x : RenderM σ Unit) : Prop :=
  capture x >>= write = x

theorem write_empty : (write "" : RenderM σ Unit) = pure () := by
  funext s
  change exec (write "") s = (.ok (), s)
  rw [write, exec_ofSink, Sink.write_of_takes (Sink.takes_empty _), Sink.push_empty]
  rfl

theorem whole_write {text : String} : Whole (write text : RenderM σ Unit) := by
  rw [Whole, capture_text, pure_bind]

theorem Quiet.whole (hx : Quiet x) : Whole x := by
  rw [Whole, hx.capture_eq, bind_assoc]
  simp only [pure_bind, write_empty]
  exact bind_pure x

theorem Quiet.whole_bind {x : RenderM σ α} {f : α → RenderM σ Unit} (hx : Quiet x) (hf : ∀ a, Whole (f a)) :
    Whole (x >>= f) := by
  rw [Whole, hx.capture_bind, bind_assoc]
  exact bind_congr hf

theorem Whole.exec_error_iff (hx : Whole x) (hsink : sink.room = none) :
    exec x { s with sink } = (.error e, t) ↔ ∃ u, exec (capture x) s = (.error e, u) ∧ t = { u with sink } := by
  have hquiet : exec (capture x) { s with sink } = _ := quiet_capture s sink
  conv_lhs => rw [← hx]
  cases hcaptured : exec (capture x) s with
  | mk result u =>
    rw [hcaptured] at hquiet
    cases result with
    | error e' =>
      rw [exec_bind_error hquiet]
      constructor
      . intro h
        cases h
        exact ⟨u, rfl, rfl⟩
      . rintro ⟨_, heq, rfl⟩
        cases heq
        rfl
    | ok text =>
      rw [exec_bind hquiet, write, exec_ofSink, Sink.write_of_takes (Sink.takes_of_unlimited hsink)]
      constructor
      . rintro ⟨⟩
      . rintro ⟨_, ⟨⟩, _⟩

theorem Streams.exec_bind_error_iff (hx : Streams x) (hsink : sink.room = none) :
    exec (x >>= fun _ => y) { s with sink } = (.error e, t) ↔
      exec x { s with sink } = (.error e, t) ∨
        ∃ text u, exec (capture x) s = (.ok text, u) ∧ exec y { u with sink := sink.push text } = (.error e, t) := by
  obtain ⟨text, result, u, hx⟩ := hx s
  have hwritten := (hx sink).1 (Sink.takes_of_unlimited hsink)
  rw [exec_capture_of_streams ((hx {}).1 (Sink.takes_of_unlimited rfl))]
  cases result with
  | error e' =>
    rw [exec_bind_error hwritten, hwritten]
    constructor
    . exact .inl
    . rintro (h | ⟨_, _, ⟨⟩, _⟩)
      exact h
  | ok v =>
    rw [exec_bind hwritten, hwritten]
    constructor
    . exact fun h => .inr ⟨text, _, rfl, h⟩
    . rintro (h | ⟨_, _, heq, h⟩)
      . cases h
      . cases heq
        exact h

end RenderM

theorem writeOutput_whole {escapes : Bool} {output : Option Output} :
    Whole (writeOutput escapes output : RenderM σ Unit) := by
  unfold writeOutput
  split
  . exact quiet_pure.whole
  . exact whole_write
  . exact whole_write

/--
The fragment that is rendered in the place of a tag, and what there is then.
-/
def Engine.included? (engine : Engine σ) (s : RenderState σ) : Node → Option (Fragment × RenderState σ)
  | .inclusion path =>
    match s.partials.get? path with
    | some fragment => some (fragment, s)
    | none =>
      match engine.loadTemplate path with
      | .ok template => some (template.fragment, { s with log := s.log ++ [.compiled path] })
      | .error _ => none
  | _ => none

namespace Walk

variable {w : Walk σ} {scope : Scope σ} {s t : RenderState σ} {sink : Sink}

theorem exec_includedFragment_cases (w : Walk σ) (s : RenderState σ) (path : String) :
    (w.engine.included? s (.inclusion path) = none ∧ ∃ e, exec (w.includedFragment path) s = (.error e, s)) ∨
      ∃ fragment t, w.engine.included? s (.inclusion path) = some (fragment, t) ∧
        exec (w.includedFragment path) s = (.ok fragment, t) := by
  rw [exec_includedFragment]
  cases hfound : s.partials.get? path with
  | some fragment => exact .inr ⟨fragment, s, by simp only [Engine.included?, hfound], rfl⟩
  | none =>
    cases hloaded : w.engine.loadTemplate path with
    | ok template => exact .inr ⟨template.fragment, _, by simp only [Engine.included?, hfound, hloaded], rfl⟩
    | error e => exact .inl ⟨by simp only [Engine.included?, hfound, hloaded], _, rfl⟩

theorem exec_renderNode_of_included {node : Node} {fragment : Fragment}
    (h : w.engine.included? s node = some (fragment, t)) :
    exec (w.renderNode scope node) { s with sink } = exec (w.renderer fragment scope) { t with sink } := by
  cases node with
  | inclusion path =>
    obtain ⟨hnone, -⟩ | ⟨fragment, t, hsome, hexec⟩ := exec_includedFragment_cases w s path
    . cases h.symm.trans hnone
    . cases h.symm.trans hsome
      have hfragment : exec (w.includedFragment path) { s with sink } = (.ok fragment, { t with sink }) := by
        rw [includedFragment_quiet, hexec]
      rw [renderNode, renderInclusion_eq, exec_bind hfragment]
  | _ => cases h

variable (hhelpers : w.engine.helpers.Quiet)
include hhelpers

theorem renderVariable_whole {call : Call} {escape : Escape} : Whole (w.renderVariable scope call escape) := by
  unfold renderVariable
  split
  next helper hname => exact (callHelper_quiet (hhelpers.function hname)).whole_bind fun _ => writeOutput_whole
  next =>
    apply quiet_ofHost.whole_bind
    intro found
    cases found with
    | some value => exact valueText_quiet.whole_bind fun _ => whole_write
    | none => exact quiet_log.whole

theorem renderBlock_whole {opening : Opening} {body inverse : Option Fragment} :
    Whole (w.renderBlock scope opening body inverse) := by
  unfold renderBlock
  split
  . exact quiet_throw.whole
  . split
    next helper hname => exact (callHelper_quiet (hhelpers.function hname)).whole_bind fun _ => writeOutput_whole
    next => exact implicitOutput_quiet.whole_bind fun _ => writeOutput_whole

theorem exec_renderNode_error_iff {node : Node} (h : w.engine.included? s node = none) {e : Failure}
    (hsink : sink.room = none) :
    exec (w.renderNode scope node) { s with sink } = (.error e, t) ↔
      ∃ u, exec (capture (w.renderNode scope node)) s = (.error e, u) ∧ t = { u with sink } := by
  cases node with
  | literal text => exact whole_write.exec_error_iff hsink
  | comment text => exact quiet_pure.whole.exec_error_iff hsink
  | «variable» call escape => exact (renderVariable_whole hhelpers).exec_error_iff hsink
  | block opening body inverse => exact (renderBlock_whole hhelpers).exec_error_iff hsink
  | inclusion path =>
    obtain ⟨-, e', hexec⟩ | ⟨_, _, hsome, -⟩ := exec_includedFragment_cases w s path
    . have hfails : exec (w.includedFragment path) { s with sink } = (.error e', { s with sink }) := by
        rw [includedFragment_quiet, hexec]
      rw [renderNode, renderInclusion_eq, includedFragment_quiet.capture_bind, exec_bind_error hexec,
        exec_bind_error hfails]
      constructor
      . intro heq
        cases heq
        exact ⟨s, rfl, rfl⟩
      . rintro ⟨u, heq, rfl⟩
        cases heq
        rfl
    . cases h.symm.trans hsome

end Walk

namespace Engine

variable {engine : Engine σ} {scope : Scope σ} {e : Error} {depth : Nat} {fragment : Fragment}
variable {s t : RenderState σ} {sink : Sink}

/--
A render of the fragment fails at one of its nodes, or in a fragment that is included there. The texts are those of
the nodes before it, each as it is rendered on its own with what those before it leave behind.
-/
inductive Stops (engine : Engine σ) (scope : Scope σ) (e : Error) :
    (depth : Nat) → Fragment → RenderState σ → List String → RenderState σ → Prop where
  | here {depth : Nat} {node : Node} {s t : RenderState σ} (nodes : Fragment) : engine.included? s node = none →
    exec (capture (engine.renderer (depth + 1) [node] scope)) s = (.error (.error e), t) →
    Stops engine scope e (depth + 1) (node :: nodes) s [] t
  | inside {depth : Nat} {node : Node} {fragment : Fragment} {s t u : RenderState σ} {texts : List String}
    (nodes : Fragment) : engine.included? s node = some (fragment, t) →
    Stops engine scope e depth fragment t texts u →
    Stops engine scope e (depth + 1) (node :: nodes) s texts u
  | later {depth : Nat} {node : Node} {nodes : Fragment} {s t u : RenderState σ} {text : String} {texts : List String} :
    exec (capture (engine.renderer (depth + 1) [node] scope)) s = (.ok text, t) →
    Stops engine scope e (depth + 1) nodes t texts u →
    Stops engine scope e (depth + 1) (node :: nodes) s (text :: texts) u

theorem renderer_singleton {node : Node} :
    engine.renderer (depth + 1) [node] scope = Walk.renderNode ⟨engine, engine.renderer depth⟩ scope node :=
  Walk.renderNodes_singleton node

variable (hhelpers : engine.helpers.Quiet)
include hhelpers

theorem exec_renderer_cons_error_iff {node : Node} {nodes : Fragment} {e : Failure} (hsink : sink.room = none) :
    exec (engine.renderer (depth + 1) (node :: nodes) scope) { s with sink } = (.error e, t) ↔
      exec (engine.renderer (depth + 1) [node] scope) { s with sink } = (.error e, t) ∨
        ∃ text u, exec (capture (engine.renderer (depth + 1) [node] scope)) s = (.ok text, u) ∧
          exec (engine.renderer (depth + 1) nodes scope) { u with sink := sink.push text } = (.error e, t) := by
  rw [renderer_singleton]
  exact (Walk.renderNode_streams hhelpers (renderer_streams hhelpers depth) node).exec_bind_error_iff hsink

theorem stops_of_exec (hsink : sink.room = none)
    (h : exec (engine.renderer depth fragment scope) { s with sink } = (.error (.error e), t)) :
    ∃ texts u, engine.Stops scope e depth fragment s texts u ∧
      t = { u with sink := sink.push (String.join texts) } := by
  -- fragments that are included are one level deeper, so the depth comes before the nodes
  induction depth generalizing fragment s sink with
  | zero => cases h
  | succ depth ih =>
    induction fragment generalizing s sink with
    | nil => cases h
    | cons node nodes ihn =>
      rcases (exec_renderer_cons_error_iff hhelpers hsink).1 h with hnode | ⟨text, u, hnode, hnodes⟩
      . rw [renderer_singleton] at hnode
        cases hincluded : engine.included? s node with
        | none =>
          obtain ⟨u, hcaptured, rfl⟩ := (Walk.exec_renderNode_error_iff hhelpers hincluded hsink).1 hnode
          rw [← renderer_singleton] at hcaptured
          exact ⟨[], u, .here nodes hincluded hcaptured, by rw [String.join_nil, Sink.push_empty]⟩
        | some included =>
          rw [Walk.exec_renderNode_of_included hincluded] at hnode
          obtain ⟨texts, u, hstops, rfl⟩ := ih hsink hnode
          exact ⟨texts, u, .inside nodes hincluded hstops, rfl⟩
      . obtain ⟨texts, v, hstops, rfl⟩ := ihn (Sink.room_push_of_unlimited hsink text) hnodes
        exact ⟨text :: texts, v, .later hnode hstops, by rw [Sink.push_append, String.join_cons]⟩

theorem exec_of_stops {texts : List String} (h : engine.Stops scope e depth fragment s texts t)
    (hsink : sink.room = none) :
    exec (engine.renderer depth fragment scope) { s with sink } =
      (.error (.error e), { t with sink := sink.push (String.join texts) }) := by
  induction h generalizing sink with
  | here nodes hincluded hcaptured =>
    apply (exec_renderer_cons_error_iff hhelpers hsink).2
    left
    rw [renderer_singleton] at hcaptured ⊢
    rw [String.join_nil, Sink.push_empty]
    exact (Walk.exec_renderNode_error_iff hhelpers hincluded hsink).2 ⟨_, hcaptured, rfl⟩
  | inside nodes hincluded hstops ih =>
    apply (exec_renderer_cons_error_iff hhelpers hsink).2
    left
    rw [renderer_singleton, Walk.exec_renderNode_of_included hincluded]
    exact ih hsink
  | later hcaptured hstops ih =>
    apply (exec_renderer_cons_error_iff hhelpers hsink).2
    right
    refine ⟨_, _, hcaptured, ?_⟩
    rw [String.join_cons, ← Sink.push_append]
    exact ih (Sink.room_push_of_unlimited hsink _)

/--
If a render fails with an error, the sink has got the texts of the nodes before the one it fails at, one after another,
and no character of that one, wherever inside the error arose.
-/
theorem exec_renderer_error_iff (hsink : sink.room = none) :
    exec (engine.renderer depth fragment scope) { s with sink } = (.error (.error e), t) ↔
      ∃ texts u, engine.Stops scope e depth fragment s texts u ∧
        t = { u with sink := { sink with written := sink.written ++ String.join texts } } := by
  simp only [← Sink.push_of_unlimited hsink]
  constructor
  . exact stops_of_exec hhelpers hsink
  . rintro ⟨texts, u, hstops, rfl⟩
    exact exec_of_stops hhelpers hstops hsink

omit hhelpers in
theorem exec_renderer_error_second_round :
    let register : Node := .block ⟨{ name := "partial", params := [.path "this"] }, false, .standard⟩ (some []) none
    let each : Node :=
      .block ⟨{ name := "each", params := [.path "xs"] }, false, .standard⟩ (some [.literal "c", register]) none
    let scope : Scope Unit := inert.rootScope (.map [("xs", .array [.string "n", .null])])
    let start : RenderState Unit := { host := (), partials := .ofList [("p", [.literal "b", each, .literal "d"])] }
    let run := exec (inert.renderer 3 [.literal "a", .inclusion "p", .literal "e"] scope) { start with sink := {} }
    (inert.helpers.Quiet ∧ ({} : Sink).room = none) ∧
      run.1 = .error (.error (.argumentType "null" "string")) ∧ run.2.sink.written = "ab" ∧
      (run.2.partials.get? "n").isSome ∧
      ∃ texts u, inert.Stops scope (.argumentType "null" "string") 3 [.literal "a", .inclusion "p", .literal "e"] start
        texts u ∧ String.join texts = "ab" := by
  intro register each scope start run
  have hresult : run.1 = .error (.error (.argumentType "null" "string")) := by decide +kernel
  have hwritten : run.2.sink.written = "ab" := by decide +kernel
  have hrun : run = (.error (.error (.argumentType "null" "string")), run.2) := by rw [← hresult]
  have hsink : ({} : Sink).room = none := rfl
  obtain ⟨texts, u, hstops, heq⟩ := (exec_renderer_error_iff Helpers.builtIns_quiet hsink).1 hrun
  refine ⟨⟨Helpers.builtIns_quiet, hsink⟩, hresult, hwritten, by decide +kernel, texts, u, hstops, ?_⟩
  rw [heq] at hwritten
  exact String.empty_append.symm.trans hwritten

end Engine

end Mustache
