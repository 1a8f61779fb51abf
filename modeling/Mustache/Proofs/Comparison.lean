import Mustache.Proofs.Reach
import Mustache.Proofs.Streaming

/-!
This module contains the comparison of two renders by one engine, which may begin with different fragments under the
same names. The main statements are that no helper and no node tells the two apart.
-/

namespace Mustache

open RenderM

variable {σ α β γ δ : Type}

def failure? : Except Failure α → Option Failure
  | .ok _ => none
  | .error e => some e

theorem eq_error_of_failure? {result : Except Failure α} {e : Failure} (h : failure? result = some e) :
    result = .error e := by
  cases result with
  | ok a => cases h
  | error e =>
    cases h
    rfl

/--
What is to be the same in two renders, and what may differ.
-/
structure Comparison (engine : Engine σ) extends Horizon engine.host where
  /-- The second renders another fragment in the place of the first one's. -/
  Fragments : Fragment → Fragment → Prop
  Registries : Dict Fragment → Dict Fragment → Prop
  /-- The texts that both may write. -/
  Shown : String → Prop
  /-- The first has failed so, or told so much, that the second is not compared with it any more. -/
  Lost : Option Failure → List LogRecord → Prop
  helpers_eq : engine.helpers = .builtIns
  callable {value : Value} {callable : Callable σ} : Values value → engine.host.callable? value = some callable →
    ∀ fragment other, Fragments fragment other ↔ fragment = other
  nothing : Fragments [] []
  shown_empty : Shown ""
  shown_append {first second : String} : Shown first → Shown second → Shown (first ++ second)
  shown_escaped (text : String) : Shown (Text.escapeHtml text)
  registered {first second : Dict Fragment} {path : String} {fragment : Fragment} : Registries first second →
    first.get? path = some fragment → ∃ other, second.get? path = some other ∧ Fragments fragment other
  missing {first second : Dict Fragment} {path : String} : Registries first second → first.get? path = none →
    second.get? path = none ∨
      ∃ template other, engine.loadTemplate path = .ok template ∧ second.get? path = some other ∧
        Fragments template.fragment other ∧ Registries (first.insert path template.fragment) second
  loaded {path : String} {template : Template} :
    engine.loadTemplate path = .ok template → Fragments template.fragment template.fragment
  insert {first second : Dict Fragment} (path : String) {fragment other : Fragment} : Registries first second →
    Fragments fragment other →
    (∀ log, Lost none (log ++ [.registering path])) ∨
      Registries (first.insert path fragment) (second.insert path other)
  lost_later {log later : List LogRecord} (e : Option Failure) : Lost none log → log <+: later → Lost e later
  lost_any {log : List LogRecord} (fragment : Fragment) : Lost none log → ∃ other, Fragments fragment other

inductive SameEnd (Q : α → β → Prop) : Except Failure α → Except Failure β → Prop where
  | ok {a : α} {b : β} : Q a b → SameEnd Q (.ok a) (.ok b)
  | error (e : Failure) : SameEnd Q (.error e) (.error e)

theorem SameEnd.eq {Q : α → α → Prop} {result other : Except Failure α} (h : SameEnd Q result other)
    (hQ : ∀ a b, Q a b → a = b) : result = other := by
  cases h with
  | ok h => rw [hQ _ _ h]
  | error e => rfl

namespace Comparison

variable {engine : Engine σ}

structure Linked (c : Comparison engine) (s t : RenderState σ) : Prop where
  host_eq : s.host = t.host
  registries : c.Registries s.partials t.partials

def Agree (c : Comparison engine) (Q : α → β → Prop) (first : Except Failure α × RenderState σ)
    (second : Except Failure β × RenderState σ) : Prop :=
  c.Lost (failure? first.1) first.2.log ∨ c.Linked first.2 second.2 ∧ SameEnd Q first.1 second.1

/--
The second part of a render does what the first one does.
-/
structure Alike (c : Comparison engine) (Q : α → β → Prop) (x : RenderM σ α) (y : RenderM σ β) : Prop where
  agree {s t : RenderState σ} : c.Linked s t → c.Agree Q (exec x s) (exec y t)
  lost {log : List LogRecord} : c.Lost none log → ∀ s : RenderState σ,
    s.log <+: (exec x s).2.log ∧ ∀ a, (exec x s).1 = .ok a → ∃ b, Q a b

namespace Alike

variable {c : Comparison engine} {Q : α → β → Prop} {R : γ → δ → Prop}

theorem pure {a : α} {b : β} (h : Q a b) : c.Alike Q (pure a) (pure b) where
  agree hlinked := .inr ⟨hlinked, .ok h⟩
  lost _ _ := by
    refine ⟨List.prefix_refl _, ?_⟩
    intro _ heq
    cases heq
    exact ⟨b, h⟩

theorem throw_lost {e : Failure} (h : ∀ log, c.Lost (some e) log) {y : RenderM σ β} : c.Alike Q (throw e) y where
  agree {s _} _ := .inl (h s.log)
  lost _ _ := ⟨List.prefix_refl _, by rintro _ ⟨⟩⟩

theorem throw {e : Failure} : c.Alike Q (throw e) (throw e) where
  agree hlinked := .inr ⟨hlinked, .error e⟩
  lost _ _ := ⟨List.prefix_refl _, by rintro _ ⟨⟩⟩

theorem bind {x : RenderM σ α} {y : RenderM σ β} {f : α → RenderM σ γ} {g : β → RenderM σ δ} (hx : c.Alike Q x y)
    (hf : ∀ a b, Q a b → c.Alike R (f a) (g b)) : c.Alike R (x >>= f) (y >>= g) where
  agree {s t} hlinked := by
    have hboth := hx.agree hlinked
    cases hs : exec x s with
    | mk result u =>
      cases ht : exec y t with
      | mk other v =>
        rw [hs, ht] at hboth
        rcases hboth with hlost | ⟨huv, hend⟩
        . cases result with
          | error e =>
            rw [exec_bind_error hs]
            exact .inl hlost
          | ok a =>
            -- what comes after the loss only tells more
            have hresult := (hx.lost hlost s).2 a
            rw [hs] at hresult
            obtain ⟨b, hab⟩ := hresult rfl
            rw [exec_bind hs]
            exact .inl (c.lost_later _ hlost ((hf a b hab).lost hlost u).1)
        . cases hend with
          | error e =>
            rw [exec_bind_error hs, exec_bind_error ht]
            exact .inr ⟨huv, .error e⟩
          | ok hab =>
            rw [exec_bind hs, exec_bind ht]
            exact (hf _ _ hab).agree huv
  lost {log} hlost s := by
    have hfirst := hx.lost hlost s
    cases hs : exec x s with
    | mk result u =>
      rw [hs] at hfirst
      obtain ⟨hgrows, hresult⟩ := hfirst
      cases result with
      | error e =>
        rw [exec_bind_error hs]
        exact ⟨hgrows, by rintro _ ⟨⟩⟩
      | ok a =>
        obtain ⟨b, hab⟩ := hresult a rfl
        obtain ⟨hlater, hlast⟩ := (hf a b hab).lost hlost u
        rw [exec_bind hs]
        exact ⟨hgrows.trans hlater, hlast⟩

theorem imp {P : α → β → Prop} {x : RenderM σ α} {y : RenderM σ β} (h : c.Alike P x y) (hPQ : ∀ a b, P a b → Q a b) :
    c.Alike Q x y := by
  have hbind := h.bind fun a b hab => Alike.pure (hPQ a b hab)
  rwa [bind_pure, bind_pure] at hbind

theorem ofHost {P : α → Prop} {x : StateM σ α} (h : Answers P x) :
    c.Alike (fun a b => a = b ∧ P a) (ofHost x) (ofHost x) where
  agree {s t} hlinked := by
    have hs : exec (RenderM.ofHost x) s = _ := exec_ofHost rfl
    have ht : exec (RenderM.ofHost x) t = _ := exec_ofHost rfl
    rw [hs, ht, hlinked.host_eq]
    exact .inr ⟨⟨rfl, hlinked.registries⟩, .ok ⟨rfl, h.run _⟩⟩
  lost _ s := by
    refine ⟨List.prefix_refl _, ?_⟩
    intro a heq
    cases heq
    exact ⟨_, rfl, h.run s.host⟩

theorem ofHost_eq {x : StateM σ α} : c.Alike Eq (RenderM.ofHost x) (RenderM.ofHost x) :=
  (ofHost (P := fun _ => True) ⟨fun _ => trivial⟩).imp fun _ _ h => h.1

theorem ofExcept {x : Except Error α} : c.Alike Eq (RenderM.ofExcept x) (RenderM.ofExcept x) := by
  cases x with
  | ok a => exact .pure rfl
  | error e => exact .throw

theorem ofCall {x : ExceptT Error (StateM σ) α} : c.Alike Eq (RenderM.ofCall x) (RenderM.ofCall x) := by
  apply ofHost_eq.bind
  rintro result _ rfl
  exact ofExcept

theorem log {r : LogRecord} : c.Alike (fun _ _ => True) (RenderM.log r) (RenderM.log r) where
  agree hlinked := .inr ⟨⟨hlinked.host_eq, hlinked.registries⟩, .ok trivial⟩
  lost _ _ := ⟨List.prefix_append _ _, fun _ _ => ⟨(), trivial⟩⟩

theorem register {path : String} {fragment other : Fragment} (h : c.Fragments fragment other) :
    c.Alike (fun _ _ => True) (RenderM.register path fragment) (RenderM.register path other) where
  agree {s t} hlinked := by
    rcases c.insert path hlinked.registries h with hlost | hregistries
    . exact .inl (hlost s.log)
    . exact .inr ⟨⟨hlinked.host_eq, hregistries⟩, .ok trivial⟩
  lost _ _ := ⟨List.prefix_append _ _, fun _ _ => ⟨(), trivial⟩⟩

theorem templateAt {settings : Settings σ} {path : String} :
    c.Alike Eq (settings.templateAt path) (settings.templateAt path) := by
  unfold Settings.templateAt
  split
  . apply log.bind
    intro _ _ _
    exact .pure rfl
  . exact .pure rfl

end Alike

end Comparison

theorem BuiltIn.exec_blockFragment {inv : Invocation σ} {path : String} {s : RenderState σ} :
    exec (blockFragment path inv) s =
      match s.partials.get? path with
      | some fragment => (.ok fragment, s)
      | none =>
        match inv.settings.loadTemplate path with
        | .ok template =>
          (.ok template.fragment,
            { s with
              partials := s.partials.insert path template.fragment
              log := s.log ++ [.compiled path] ++ [.registering path] })
        | .error e => (.ok inv.body, { s with log := s.log ++ [.defaultContent path e] }) := by
  have hfound : exec (partial? path) s = (.ok (s.partials.get? path), s) := rfl
  unfold blockFragment
  rw [exec_bind hfound]
  cases s.partials.get? path with
  | some fragment => rfl
  | none =>
    dsimp only
    unfold Settings.templateAt
    cases inv.settings.loadTemplate path <;> rfl

namespace Walk

variable {w : Walk σ}

def includedFragment (w : Walk σ) (path : String) : RenderM σ Fragment := do
  match ← partial? path with
  | some fragment => return fragment
  | none =>
    match ← w.engine.templateAt path with
    | .ok template => return template.fragment
    | .error e => fail (.cannotLoad path e)

theorem includedFragment_quiet {path : String} : Quiet (w.includedFragment path) := by
  apply quiet_partial?.bind
  intro found
  cases found with
  | some fragment => exact quiet_pure
  | none =>
    apply BuiltIn.templateAt_quiet.bind
    intro found
    cases found with
    | ok template => exact quiet_pure
    | error e => exact quiet_throw

theorem renderInclusion_eq (scope : Scope σ) (path : String) :
    w.renderInclusion scope path = w.includedFragment path >>= fun fragment => w.renderer fragment scope := by
  unfold renderInclusion includedFragment
  rw [bind_assoc]
  congr 1
  funext found
  cases found with
  | some fragment => rfl
  | none =>
    dsimp only
    rw [bind_assoc]
    congr 1
    funext found
    cases found <;> rfl

theorem exec_includedFragment {path : String} {s : RenderState σ} :
    exec (w.includedFragment path) s =
      match s.partials.get? path with
      | some fragment => (.ok fragment, s)
      | none =>
        match w.engine.loadTemplate path with
        | .ok template => (.ok template.fragment, { s with log := s.log ++ [.compiled path] })
        | .error e => (.error (.error (.cannotLoad path e)), s) := by
  have hfound : exec (partial? path) s = (.ok (s.partials.get? path), s) := rfl
  unfold includedFragment
  rw [exec_bind hfound]
  cases s.partials.get? path with
  | some fragment => rfl
  | none =>
    dsimp only
    unfold Settings.templateAt
    cases w.engine.loadTemplate path <;> rfl

end Walk

end Mustache
