import Mustache.Proofs.Alike
import Mustache.Proofs.Lookup
import Mustache.Proofs.Numerals
import Mustache.Proofs.Rounds

/-!
This module contains what is found of a sequence under the numbers of its elements. The main statement is that a path
with a number leads to the element that a section over the same name has in the round of that number.
-/

namespace Mustache

open RenderM

variable {σ : Type}

namespace Resolver

theorem element?_repr (items : List Value) (i : Nat) : element? items i.repr = items[i]? := by
  have hlength : i.repr ≠ "length" := by
    intro h
    have hmem : 'l' ∈ i.repr.toList := by simp [h]
    rw [Nat.toList_repr] at hmem
    exact absurd (Nat.isDigit_of_mem_toDigits (by decide) (by decide) hmem) (by decide)
  rw [element?, if_neg hlength, Number.readCount_repr, Option.bind_some]

end Resolver

namespace Host

variable {host : Host σ} {value : Value} {items : List Value} (h : Answers (· = some items) (host.elements? value))
include h

theorem run_elements? (state : σ) :
    (host.elements? value).run state = (some items, ((host.elements? value).run state).2) :=
  Prod.ext (h.run state) rfl

theorem run_isFalsy_of_elements (state : σ) :
    (host.isFalsy value).run state = (items.isEmpty, ((host.elements? value).run state).2) := by
  have hrun := run_elements? h state
  cases value with
  | array elements =>
    cases hrun
    rfl
  | object id =>
    change (host.elements id).run state = _ at hrun
    change (((host.elements id).run state).1.any List.isEmpty, _) = _
    rw [hrun]
    rfl
  | _ => cases hrun

theorem run_map_of_elements (name : String) (state : σ) : (Resolver.map value name).run state = (none, state) := by
  have hrun := run_elements? h state
  cases value with
  | array | object => rfl
  | _ => cases hrun

theorem run_index_of_elements (name : String) (state : σ) :
    (Resolver.index host value name).run state =
      (Resolver.element? items name, ((host.elements? value).run state).2) := by
  change StateT.run (host.elements? value >>= _) state = _
  rw [StateT.run_bind, run_elements? h state]
  rfl

end Host

namespace Scope

section

variable {scope : Scope σ}

theorem get_name_member {name member : String} (hpoint : '.' ∉ name.toList) (hthis : name ≠ "this")
    (hne : member ≠ "") (hmember : '.' ∉ member.toList) (hslash : '/' ∉ member.toList) :
    scope.get (name ++ "." ++ member) = scope.get name >>= memberOf? scope.resolvers member := by
  rw [get, get, Path.ofString_name_member hpoint hthis hne hmember hslash, Path.ofString_name hpoint hthis]
  exact @find_append _ scope ⟨0, .name name, []⟩ member

theorem get_name_index {name : String} (hpoint : '.' ∉ name.toList) (hthis : name ≠ "this") (i : Nat) :
    scope.get (name ++ "." ++ i.repr) = scope.get name >>= memberOf? scope.resolvers i.repr := by
  have hdigit {c : Char} (hc : c ∈ i.repr.toList) : c.isDigit := by
    rw [Nat.toList_repr] at hc
    exact Nat.isDigit_of_mem_toDigits (by decide) (by decide) hc
  have hne : i.repr ≠ "" := by
    intro h
    have hnil : i.repr.toList = [] := by rw [h]; rfl
    rw [Nat.toList_repr] at hnil
    exact Nat.toDigits_ne_nil hnil
  exact get_name_member hpoint hthis hne (fun hc => absurd (hdigit hc) (by decide))
    fun hc => absurd (hdigit hc) (by decide)

end

section

variable {host : Host σ} {value : Value} {items : List Value} (h : Answers (· = some items) (host.elements? value))
include h

theorem run_resolve_of_elements (name : String) (state : σ) :
    (resolve value name (Resolver.builtIn host)).run state =
      match Resolver.element? items name with
      | some found => (some found, ((host.elements? value).run state).2)
      | none => (Resolver.object host value name).run ((host.elements? value).run state).2 := by
  have hobject : resolve value name [Resolver.object host] = Resolver.object host value name := by
    refine Eq.trans (congrArg (Resolver.object host value name >>= ·) (funext fun found => ?_)) (bind_pure _)
    cases found <;> rfl
  -- the resolver for maps has no answer, as a map has no elements
  unfold Resolver.builtIn resolve
  rw [StateT.run_bind, Host.run_map_of_elements h]
  change StateT.run (resolve value name [Resolver.index host, Resolver.object host]) state = _
  unfold resolve
  rw [StateT.run_bind, Host.run_index_of_elements h, hobject]
  cases Resolver.element? items name <;> rfl

end

end Scope

namespace Engine

variable {engine : Engine σ} {scope : Scope σ} {name : String} {value : Value} {items : List Value}

theorem run_get_index (hresolvers : scope.resolvers = Resolver.builtIn engine.host) (hpoint : '.' ∉ name.toList)
    (hthis : name ≠ "this") (helements : Answers (· = some items) (engine.host.elements? value)) {state found : σ}
    (hget : (scope.get name).run state = (some value, found)) (i : Nat) :
    (scope.get (name ++ "." ++ i.repr)).run state =
      match items[i]? with
      | some element => (some element, ((engine.host.elements? value).run found).2)
      | none => (Resolver.object engine.host value i.repr).run ((engine.host.elements? value).run found).2 := by
  rw [Scope.get_name_index hpoint hthis, StateT.run_bind, hget, hresolvers, ← Resolver.element?_repr]
  exact Scope.run_resolve_of_elements helements i.repr found

theorem run_get_length (hresolvers : scope.resolvers = Resolver.builtIn engine.host) (hpoint : '.' ∉ name.toList)
    (hthis : name ≠ "this") (helements : Answers (· = some items) (engine.host.elements? value)) {state found : σ}
    (hget : (scope.get name).run state = (some value, found)) :
    (scope.get (name ++ "." ++ "length")).run state =
      (some (.ofNat items.length), ((engine.host.elements? value).run found).2) := by
  rw [Scope.get_name_member hpoint hthis (by decide) (by decide) (by decide), StateT.run_bind, hget, hresolvers]
  exact Scope.run_resolve_of_elements helements "length" found

theorem exec_capture_each (heach : engine.helpers.get? "each" = some (.builtIn .each)) (depth : Nat) (inverted : Bool)
    (d : Delimiters) (body : Fragment) (inverse : Option Fragment) {s : RenderState σ} {found : σ}
    (hget : (scope.get name).run s.host = (some value, found)) :
    exec (capture (engine.renderer (depth + 1)
        [.block ⟨{ name := "each", params := [.path name] }, inverted, d⟩ (some body) inverse] scope)) s =
      exec (BuiltIn.each.call value { Walk.invocation ⟨engine, engine.renderer depth⟩ scope with body, inverse } >>=
        fun output => pure (Comparison.writtenText false output)) { s with host := found } := by
  rw [renderer_block, Walk.renderBlock_helper heach, Comparison.capture_output Walk.callBuiltIn_quiet]
  exact exec_bind_congr (Walk.exec_callHelper_path hget (.builtIn .each) "each" body inverse)

/--
Under a name that leads to a sequence, or to an object whose elements are always the same, each number below their
count leads to the element that the body is rendered for in the round of that number, and `length` to the number of
the rounds, whatever members the object itself has. It is asked for a number only if there is no such element.
-/
theorem get_index_each (hresolvers : scope.resolvers = Resolver.builtIn engine.host) (hpoint : '.' ∉ name.toList)
    (hthis : name ≠ "this") (helements : Answers (· = some items) (engine.host.elements? value)) :
    (∀ state found, (scope.get name).run state = (some value, found) →
      let asked := ((engine.host.elements? value).run found).2
      (∀ i, ∀ h : i < items.length,
        (scope.get (name ++ "." ++ i.repr)).run state = (some items[i], asked)) ∧
      (∀ i, items.length ≤ i →
        (∀ elements, value = .array elements → (scope.get (name ++ "." ++ i.repr)).run state = (none, asked)) ∧
        (∀ id, value = .object id →
          (scope.get (name ++ "." ++ i.repr)).run state = (engine.host.member id i.repr).run asked)) ∧
      (scope.get (name ++ "." ++ "length")).run state = (some (.ofNat items.length), asked)) ∧
    (engine.helpers.get? "each" = some (.builtIn .each) → ∀ depth inverted d body inverse,
      let inv : Invocation σ :=
        { settings := engine.toSettings, renderer := engine.renderer depth, scope, body, inverse }
      ∀ (s : RenderState σ) found, (scope.get name).run s.host = (some value, found) →
        let run := exec (capture (engine.renderer (depth + 1)
          [.block ⟨{ name := "each", params := [.path name] }, inverted, d⟩ (some body) inverse] scope)) s
        let asked := ((engine.host.elements? value).run found).2
        let start := { s with host := ((engine.host.elements? value).run asked).2 }
        (items ≠ [] →
          (∀ text t, run = (.ok text, t) ↔ inv.Rounds items start items.length text t) ∧
          (∀ e t, run = (.error e, t) ↔
            ∃ k text u, ∃ h : k < items.length, inv.Rounds items start k text u ∧
              exec (inv.round items.length k items[k]) u = (.error e, t))) ∧
        (items = [] → run = exec inv.renderInverse { s with host := asked })) ∧
    ∀ i, ∀ h : i < items.length,
      let inside := scope.child items[i] <| .ofList [
        ("@first", .bool (i = 0)), ("@index", .ofNat i), ("@last", .bool (i + 1 = items.length))]
      inside.get "@index" = pure (some (.ofNat i)) ∧ inside.get "this" = pure (some items[i]) := by
  refine ⟨fun state found hget => ?_, fun heach depth inverted d body inverse => ?_, fun i h => ⟨rfl, rfl⟩⟩
  . have hindex := run_get_index hresolvers hpoint hthis helements hget
    intro asked
    refine ⟨fun i h => ?_, fun i h => ⟨?_, ?_⟩, run_get_length hresolvers hpoint hthis helements hget⟩
    . rw [hindex, List.getElem?_eq_getElem h]
    . rintro elements rfl
      rw [hindex, List.getElem?_eq_none h]
      rfl
    . rintro id rfl
      rw [hindex, List.getElem?_eq_none h]
      rfl
  . intro inv s found hget run asked start
    have hrun : run = exec (BuiltIn.each.call value inv >>= fun output => pure (Comparison.writtenText false output))
        { s with host := found } := exec_capture_each heach depth inverted d body inverse hget
    -- the elements are asked for twice, at first only to see whether there are any
    have hfalsy := Host.run_isFalsy_of_elements helements found
    refine ⟨fun hitems => ?_, fun hitems => ?_⟩
    . rw [List.isEmpty_eq_false_iff.2 hitems] at hfalsy
      have hrounds : run = exec (BuiltIn.renderElements inv items.length 0 items) start := by
        have hasked : (inv.settings.host.elements? value).run asked = _ := Host.run_elements? helements asked
        rw [hrun, exec_bind_congr (BuiltIn.exec_each_elements hfalsy hasked), Comparison.text_written]
      simp only [hrounds, BuiltIn.exec_renderElements_ok_iff, BuiltIn.exec_renderElements_error_iff, implies_true,
        and_self]
    . rw [List.isEmpty_iff.2 hitems] at hfalsy
      rw [hrun, exec_bind_congr (BuiltIn.exec_each_falsy hfalsy), Comparison.text_written]

theorem get_index_each_members :
    let items : List Value := [.string "a", .string "b"]
    let beyond : Nat := 18446744073709551616
    let engine := standard { Host.counting fun _ => some items with member := fun _ name => pure (some (.string name)) }
      .gregorian
    let scope := engine.rootScope (.map [("xs", .object 0)])
    let body : Fragment := [.variable { name := "@index" } .html, .variable { name := "this" } .html]
    let inv : Invocation Nat := { settings := engine.toSettings, renderer := engine.renderer 1, scope, body }
    let run := exec (capture (engine.renderer 2
      [.block ⟨{ name := "each", params := [.path "xs"] }, false, .standard⟩ (some body) none] scope)) { host := 0 }
    (scope.resolvers = Resolver.builtIn engine.host ∧ '.' ∉ "xs".toList ∧ "xs" ≠ "this" ∧
        Answers (· = some items) (engine.host.elements? (.object 0)) ∧
        (scope.get "xs").run 0 = (some (.object 0), 0) ∧ engine.helpers.get? "each" = some (.builtIn .each)) ∧
      ((scope.get ("xs" ++ "." ++ (1).repr)).run 0 = (some (.string "b"), 1) ∧
        (scope.get ("xs" ++ "." ++ beyond.repr)).run 0 = (some (.string beyond.repr), 1) ∧
        (scope.get ("xs" ++ "." ++ "length")).run 0 = (some (.ofNat 2), 1)) ∧
      run.1 = .ok "0a1b" ∧ inv.Rounds items { host := 2 } 2 "0a1b" run.2 := by
  intro items beyond engine scope body inv run
  have helements : Answers (· = some items) (engine.host.elements? (.object 0)) := ⟨fun _ => rfl⟩
  have hget : (scope.get "xs").run 0 = (some (.object 0), 0) := by rfl
  have hhelper : engine.helpers.get? "each" = some (.builtIn .each) := by rfl
  obtain ⟨hindex, heach, -⟩ := @get_index_each _ engine scope "xs" _ items rfl (by decide) (by decide) helements
  obtain ⟨hbelow, habove, hlength⟩ := hindex 0 0 hget
  obtain ⟨hrounds, -⟩ := heach hhelper 1 false .standard body none { host := 0 } 0 hget
  have hresult : run.1 = .ok "0a1b" := by decide +kernel
  have hrun : run = (.ok "0a1b", run.2) := by rw [← hresult]
  refine ⟨⟨rfl, by decide, by decide, helements, hget, hhelper⟩, ⟨hbelow 1 (by decide), ?_, hlength⟩, hresult, ?_⟩
  . exact (habove beyond (by decide)).2 0 rfl
  . exact ((hrounds (by simp [items])).1 _ _).1 hrun

end Engine

end Mustache
