import Mathlib.Data.List.Basic
import Mustache.Proofs.Exec
import Mustache.Proofs.Hosts

/-!
This module contains how a body is rendered for elements. The main statement is that there is one round for each element
of one answer of the host, in their order, and that each round goes on from what the one before it left.
-/

namespace Mustache

open RenderM

variable {σ : Type}

namespace Invocation

variable (inv : Invocation σ)

def round (count index : Nat) (element : Value) : RenderM σ String :=
  capture (inv.renderer inv.body (inv.scope.child element <| .ofList [
    ("@first", .bool (index = 0)), ("@index", .ofNat index), ("@last", .bool (index + 1 = count))]))

/--
The text of the first `k` rounds, and the state that the last of them leaves. Each of them ends well, and each begins in
the state that the one before it leaves.
-/
inductive Rounds (elements : List Value) (s : RenderState σ) : Nat → String → RenderState σ → Prop where
  | none : Rounds elements s 0 "" s
  | next {k : Nat} {text more : String} {t u : RenderState σ} (h : k < elements.length) : Rounds elements s k text t →
    exec (inv.round elements.length k elements[k]) t = (.ok more, u) → Rounds elements s (k + 1) (text ++ more) u

end Invocation

namespace BuiltIn

variable {inv : Invocation σ} {elements : List Value} {s : RenderState σ}

theorem renderBodyWith_element {count index : Nat} (h : index < count) (element : Value) :
    inv.renderBodyWith element (elementLocals index count) = inv.round count index element := by
  have hlast : (index == count - 1) = decide (index + 1 = count) := by
    rw [Bool.eq_iff_iff, beq_iff_eq, decide_eq_true_iff]
    omega
  have hlocals : elementLocals index count = .ofList [
      ("@first", .bool (index = 0)), ("@index", .ofNat index), ("@last", .bool (index + 1 = count))] := by
    rw [elementLocals, hlast]
    rfl
  rw [Invocation.renderBodyWith, hlocals]
  rfl

theorem rounds_le {k : Nat} {text : String} {t : RenderState σ} (h : inv.Rounds elements s k text t) :
    k ≤ elements.length := by
  cases h with
  | none => exact Nat.zero_le _
  | next hlt => exact hlt

theorem exec_renderElements_of_rounds {k : Nat} {text : String} {t : RenderState σ}
    (h : inv.Rounds elements s k text t) :
    exec (renderElements inv elements.length 0 elements) s =
      exec (do return text ++ (← renderElements inv elements.length k (elements.drop k))) t := by
  induction h with
  | none => simp only [List.drop_zero, String.empty_append, bind_pure]
  | next hlt _ hround ih =>
    rw [ih, List.drop_eq_getElem_cons hlt, renderElements, renderBodyWith_element hlt, bind_assoc, exec_bind hround]
    simp only [bind_assoc, pure_bind, String.append_assoc]

theorem rounds_end (remaining : List Value) {k : Nat} {text : String} {t : RenderState σ}
    (h : inv.Rounds elements s k text t) (hremaining : elements.drop k = remaining) :
    (∃ text t, inv.Rounds elements s elements.length text t) ∨
      ∃ k text u e t, ∃ hlt : k < elements.length, inv.Rounds elements s k text u ∧
        exec (inv.round elements.length k elements[k]) u = (.error e, t) := by
  induction remaining generalizing k text t with
  | nil =>
    have hk : k = elements.length := Nat.le_antisymm (rounds_le h) (List.drop_eq_nil_iff.1 hremaining)
    subst hk
    exact .inl ⟨text, t, h⟩
  | cons element remaining ih =>
    have hlt : k < elements.length := by
      rw [← Nat.not_le]
      intro hle
      rw [List.drop_eq_nil_of_le hle] at hremaining
      cases hremaining
    rw [List.drop_eq_getElem_cons hlt, List.cons.injEq] at hremaining
    cases hround : exec (inv.round elements.length k elements[k]) t with
    | mk result u =>
      cases result with
      | error e => exact .inr ⟨k, text, t, e, u, hlt, h, hround⟩
      | ok more => exact ih (.next hlt h hround) hremaining.2

theorem exec_renderElements_done {text : String} {t : RenderState σ}
    (h : inv.Rounds elements s elements.length text t) :
    exec (renderElements inv elements.length 0 elements) s = (.ok text, t) := by
  rw [exec_renderElements_of_rounds h, List.drop_length, renderElements, pure_bind, String.append_empty]
  rfl

theorem exec_renderElements_failed {k : Nat} {text : String} {e : Failure} {t u : RenderState σ}
    (hlt : k < elements.length) (h : inv.Rounds elements s k text u)
    (hround : exec (inv.round elements.length k elements[k]) u = (.error e, t)) :
    exec (renderElements inv elements.length 0 elements) s = (.error e, t) := by
  rw [exec_renderElements_of_rounds h, List.drop_eq_getElem_cons hlt, renderElements, renderBodyWith_element hlt,
    bind_assoc, exec_bind_error hround]

theorem exec_renderElements_ok_iff {text : String} {t : RenderState σ} :
    exec (renderElements inv elements.length 0 elements) s = (.ok text, t) ↔
      inv.Rounds elements s elements.length text t := by
  refine ⟨fun hrun => ?_, exec_renderElements_done⟩
  rcases rounds_end elements (.none : inv.Rounds elements s 0 "" s) rfl with
    ⟨text, t, hdone⟩ | ⟨k, text, u, e, t, hlt, hrounds, hround⟩
  . cases hrun.symm.trans (exec_renderElements_done hdone)
    exact hdone
  . cases hrun.symm.trans (exec_renderElements_failed hlt hrounds hround)

theorem exec_renderElements_error_iff {e : Failure} {t : RenderState σ} :
    exec (renderElements inv elements.length 0 elements) s = (.error e, t) ↔
      ∃ k text u, ∃ hlt : k < elements.length, inv.Rounds elements s k text u ∧
        exec (inv.round elements.length k elements[k]) u = (.error e, t) := by
  refine ⟨fun hrun => ?_, fun ⟨k, text, u, hlt, hrounds, hround⟩ => exec_renderElements_failed hlt hrounds hround⟩
  rcases rounds_end elements (.none : inv.Rounds elements s 0 "" s) rfl with
    ⟨text, t, hdone⟩ | ⟨k, text, u, e, t, hlt, hrounds, hround⟩
  . cases hrun.symm.trans (exec_renderElements_done hdone)
  . cases hrun.symm.trans (exec_renderElements_failed hlt hrounds hround)
    exact ⟨k, text, u, hlt, hrounds, hround⟩

theorem exec_output_ok_iff {x : RenderM σ String} {output : Option Output} {t : RenderState σ} :
    exec (do return some (.text (← x))) s = (.ok output, t) ↔
      ∃ text, exec x s = (.ok text, t) ∧ output = some (.text text) := by
  cases hx : exec x s with
  | mk result u =>
    cases result with
    | ok text =>
      rw [exec_bind hx]
      change (Except.ok (some (Output.text text)), u) = _ ↔ _
      constructor
      . rintro ⟨⟩
        exact ⟨text, rfl, rfl⟩
      . rintro ⟨_, ⟨⟩, rfl⟩
        rfl
    | error e =>
      rw [exec_bind_error hx]
      simp

theorem exec_output_error_iff {x : RenderM σ String} {e : Failure} {t : RenderState σ} :
    exec (do return some (Output.text (← x))) s = (.error e, t) ↔ exec x s = (.error e, t) := by
  cases hx : exec x s with
  | mk result u =>
    cases result with
    | ok text =>
      rw [exec_bind hx]
      change (Except.ok (some (Output.text text)), u) = _ ↔ _
      simp
    | error e =>
      rw [exec_bind_error hx]
      simp

theorem exec_each_falsy {value : Value} {host : σ}
    (hfalsy : (inv.settings.host.isFalsy value).run s.host = (true, host)) :
    exec (BuiltIn.each.call value inv) s =
      exec (do return some (.text (← inv.renderInverse))) { s with host } := by
  unfold call callEach
  dsimp only
  rw [bind_assoc, exec_bind (exec_ofHost hfalsy)]
  rfl

theorem exec_each_elements {value : Value} {host later : σ}
    (hfalsy : (inv.settings.host.isFalsy value).run s.host = (false, host))
    (helements : (inv.settings.host.elements? value).run host = (some elements, later)) :
    exec (BuiltIn.each.call value inv) s =
      exec (do return some (.text (← renderElements inv elements.length 0 elements))) { s with host := later } := by
  unfold call callEach
  dsimp only
  rw [bind_assoc, exec_bind (exec_ofHost hfalsy), if_neg (by decide), bind_assoc, exec_bind (exec_ofHost helements)]

end BuiltIn

open BuiltIn

/--
The elements are those of the one answer that the host gives when the value has been found not to be falsy. The text
for them is that of one round for each of them, and with the first round that fails all of it fails, with nothing done
behind it. For a value that is falsy it is the text of the inverse where the section stands.
-/
theorem exec_each_rounds (inv : Invocation σ) (value : Value) (s : RenderState σ) :
    let run := exec (BuiltIn.each.call value inv) s
    (∀ host later elements, (inv.settings.host.isFalsy value).run s.host = (false, host) →
      (inv.settings.host.elements? value).run host = (some elements, later) →
      let start := { s with host := later }
      (∀ output t, run = (.ok output, t) ↔
        ∃ text, inv.Rounds elements start elements.length text t ∧ output = some (.text text)) ∧
      (∀ e t, run = (.error e, t) ↔
        ∃ k text u, ∃ hlt : k < elements.length, inv.Rounds elements start k text u ∧
          exec (inv.round elements.length k elements[k]) u = (.error e, t)) ∧
      (elements = [] → run = (.ok (some (.text "")), start))) ∧
    ∀ host, (inv.settings.host.isFalsy value).run s.host = (true, host) →
      run = exec (do
        match inv.inverse with
        | some inverse => return some (.text (← capture (inv.renderer inverse inv.scope)))
        | none => return some (.text "")) { s with host } := by
  intro run
  refine ⟨fun host later elements hfalsy helements => ?_, fun host hfalsy => ?_⟩
  . have hrun : run = exec (do return some (.text (← renderElements inv elements.length 0 elements)))
        { s with host := later } := exec_each_elements hfalsy helements
    intro start
    refine ⟨fun output t => ?_, fun e t => ?_, ?_⟩
    . rw [hrun, exec_output_ok_iff]
      simp only [start, exec_renderElements_ok_iff]
    . rw [hrun, exec_output_error_iff, exec_renderElements_error_iff]
    . rintro rfl
      exact hrun
  . rw [show run = _ from exec_each_falsy hfalsy]
    unfold Invocation.renderInverse
    cases inv.inverse with
    | some inverse => rfl
    | none => rfl

theorem exec_each_rounds_drained :
    let engine := Engine.counting fun asked =>
      some (if asked = 0 then [.null, .null, .null] else [.string "a", .string "b"])
    let host := engine.host
    let named (name : String) (text : String) : Node :=
      .block ⟨{ name, params := [.str "p"] }, false, .standard⟩ (some [.literal text]) none
    let body : Fragment := [.variable { name := "this" } .html, named "block" "1", named "partial" "2"]
    let inv : Invocation Nat := {
      settings := engine.toSettings, renderer := engine.renderer 3, scope := engine.rootScope .null, body }
    let run := exec (BuiltIn.each.call (.object 0) inv) { host := 0 }
    let start : RenderState Nat := { host := 2 }
    ((host.isFalsy (.object 0)).run 0 = (false, 1) ∧
        (host.elements? (.object 0)).run 1 = (some [.string "a", .string "b"], 2)) ∧
      (run.1 = .ok (some (.text "a1b2")) ∧ inv.Rounds [.string "a", .string "b"] start 2 "a1b2" run.2) ∧
      (host.isFalsy .null).run 0 = (true, 0) ∧
      exec (BuiltIn.each.call .null inv) { host := 0 } = (.ok (some (.text "")), { host := 0 }) := by
  intro engine host named body inv run start
  have hfalsy : (host.isFalsy (.object 0)).run 0 = (false, 1) := by rfl
  have helements : (host.elements? (.object 0)).run 1 = (some [.string "a", .string "b"], 2) := by rfl
  have hnull : (host.isFalsy .null).run 0 = (true, 0) := by rfl
  have hresult : run.1 = .ok (some (.text "a1b2")) := by decide +kernel
  have hrun : run = (.ok (some (.text "a1b2")), run.2) := by rw [← hresult]
  obtain ⟨hrounds, -⟩ := exec_each_rounds inv (.object 0) { host := 0 }
  obtain ⟨-, hinverse⟩ := exec_each_rounds inv .null { host := 0 }
  obtain ⟨text, htext, heq⟩ := ((hrounds 1 2 _ hfalsy helements).1 _ _).1 hrun
  cases heq
  exact ⟨⟨hfalsy, helements⟩, ⟨hresult, htext⟩, hnull, hinverse 0 hnull⟩

end Mustache
