import Mathlib.Order.Filter.Basic
import Mustache.Proofs.Exec
import Mustache.Proofs.Reach

/-!
This module contains families of parts of a render, of which nearly all come to the same. The main statements are that
this is kept by all that a part is put together from, as are limits to what it registers and to how it fails.
-/

namespace Mustache

open RenderM

variable {σ α β ι : Type}

/--
What a part of a render keeps within: the registries that it leaves, and the failures that it may end with.
-/
structure Limits where
  Registries : Dict Fragment → Prop
  Fails : Failure → Prop

namespace Limits

inductive Ends (c : Limits) (Q : α → Prop) : Except Failure α → Prop where
  | ok {a : α} : Q a → Ends c Q (.ok a)
  | error {e : Failure} : c.Fails e → Ends c Q (.error e)

/--
From each state within the limits nearly all of the parts come to the same, and that is within them, too.
-/
def Settles (c : Limits) (l : Filter ι) (Q : α → Prop) (x : ι → RenderM σ α) : Prop :=
  ∀ s : RenderState σ, c.Registries s.partials → ∃ result t,
    (∀ᶠ i in l, exec (x i) s = (result, t)) ∧ c.Registries t.partials ∧ c.Ends Q result

namespace Settles

variable {c : Limits} {l : Filter ι} {Q : α → Prop} {R : β → Prop}

theorem const {x : RenderM σ α}
    (h : ∀ s, c.Registries s.partials → c.Registries (exec x s).2.partials ∧ c.Ends Q (exec x s).1) :
    c.Settles l Q fun _ => x := by
  intro s hs
  exact ⟨(exec x s).1, (exec x s).2, .of_forall fun _ => rfl, h s hs⟩

theorem pure {a : α} (h : Q a) : c.Settles l Q fun _ => (pure a : RenderM σ α) :=
  const fun _ hs => ⟨hs, .ok h⟩

theorem throw {e : Failure} (h : c.Fails e) : c.Settles l Q fun _ => (throw e : RenderM σ α) :=
  const fun _ hs => ⟨hs, .error h⟩

theorem bind {x : ι → RenderM σ α} {f : ι → α → RenderM σ β} (hx : c.Settles l Q x)
    (hf : ∀ a, Q a → c.Settles l R fun i => f i a) : c.Settles l R fun i => x i >>= f i := by
  intro s hs
  obtain ⟨result, t, hall, ht, hend⟩ := hx s hs
  cases hend with
  | error he => exact ⟨_, t, hall.mono fun i hi => exec_bind_error hi, ht, .error he⟩
  | ok ha =>
    obtain ⟨last, u, hrest, hu, hlast⟩ := hf _ ha t ht
    refine ⟨last, u, ?_, hu, hlast⟩
    filter_upwards [hall, hrest] with i hi hi'
    rw [exec_bind hi, hi']

theorem congr {x y : ι → RenderM σ α} (h : c.Settles l Q x) (heq : ∀ᶠ i in l, y i = x i) : c.Settles l Q y := by
  intro s hs
  obtain ⟨result, t, hall, ht, hend⟩ := h s hs
  refine ⟨result, t, ?_, ht, hend⟩
  filter_upwards [hall, heq] with i hi hi'
  rw [hi', hi]

theorem ofHost {x : StateM σ α} (h : Answers Q x) : c.Settles l Q fun _ => RenderM.ofHost x :=
  const fun s hs => ⟨hs, .ok (h.run s.host)⟩

theorem ofHost_any {x : StateM σ α} : c.Settles l (fun _ => True) fun _ => RenderM.ofHost x :=
  ofHost ⟨fun _ => trivial⟩

theorem ofExcept {x : Except Error α} (hok : ∀ a, x = .ok a → Q a)
    (herror : ∀ e, x = .error e → c.Fails (.error e)) :
    c.Settles l Q fun _ => (RenderM.ofExcept x : RenderM σ α) := by
  cases x with
  | ok a => exact pure (hok a rfl)
  | error e => exact throw (herror e rfl)

theorem ofCall {x : ExceptT Error (StateM σ) α}
    (h : Answers (fun result => ∀ e, result = .error e → c.Fails (.error e)) x.run) :
    c.Settles l (fun _ => True) fun _ => RenderM.ofCall x :=
  (ofHost h).bind fun _ hresult => ofExcept (fun _ _ => trivial) hresult

theorem log {r : LogRecord} : c.Settles l (fun _ => True) fun _ => (RenderM.log r : RenderM σ Unit) :=
  const fun _ hs => ⟨hs, .ok trivial⟩

theorem capture {x : ι → RenderM σ Unit} (h : c.Settles l (fun _ => True) x) :
    c.Settles l (fun _ => True) fun i => RenderM.capture (x i) := by
  intro s hs
  obtain ⟨result, t, hall, ht, hend⟩ := h { s with sink := {} } hs
  cases hend with
  | ok ha => exact ⟨_, _, hall.mono fun i hi => exec_capture hi, ht, .ok trivial⟩
  | error he => exact ⟨_, _, hall.mono fun i hi => exec_capture_error hi, ht, .error he⟩

end Settles

end Limits

def Error.IsCommon (e : Error) : Prop :=
  ∀ name, e ≠ .missingBody name

/--
What renders by an engine may come across, besides the values: the fragments that they may render, the paths that they
may show, and the fragments that they may register under a path.
-/
structure Regime (engine : Engine σ) extends Horizon engine.host, Limits where
  Inside : Fragment → Prop
  Shown : String → Prop
  Registered : String → Fragment → Prop
  helpers_eq : engine.helpers = .builtIns
  common {e : Error} : e.IsCommon → Fails (.error e)
  registered {registry : Dict Fragment} {path : String} {fragment : Fragment} : Registries registry → Shown path →
    registry.get? path = some fragment → Inside fragment
  loaded {path : String} {template : Template} : Shown path → engine.loadTemplate path = .ok template →
    Inside template.fragment ∧ Registered path template.fragment
  insert {registry : Dict Fragment} {path : String} {fragment : Fragment} : Registries registry →
    Registered path fragment → Registries (registry.insert path fragment)
  callable {value : Value} {callable : Callable σ} : Values value → engine.host.callable? value = some callable →
    (∀ scope text, Answers (fun result => ∀ e, result = .error e → Fails (.error e)) (callable scope text).run) ∧
    (∀ {d source template}, Template.compile d source = .ok template → Inside template.fragment) ∧
    ∀ text, Inside [.literal text]

namespace Regime

open Limits

variable {engine : Engine σ} {c : Regime engine} {l : Filter ι} {Q : α → Prop}

theorem fail_settles {e : Error} (h : e.IsCommon) : c.Settles l Q fun _ => (fail e : RenderM σ α) :=
  .throw (c.common h)

theorem ofSink_settles {x : Sink → Except Error Unit × Sink}
    (h : ∀ sink e, (x sink).1 = .error e → e.IsCommon) :
    c.Settles l (fun _ => True) fun _ => (ofSink x : RenderM σ Unit) := by
  apply Settles.const
  intro s hs
  rw [exec_ofSink]
  refine ⟨hs, ?_⟩
  cases hend : (x s.sink).1 with
  | ok _ => exact .ok trivial
  | error e => exact .error (c.common (h _ _ hend))

theorem write_settles {text : String} : c.Settles l (fun _ => True) fun _ => (write text : RenderM σ Unit) := by
  apply ofSink_settles
  intro sink e he
  unfold Sink.write at he
  split at he
  . cases he
  . dsimp only at he
    split at he
    . cases he
    . cases he
      rintro name ⟨⟩

theorem flush_settles : c.Settles l (fun _ => True) fun _ => (flush : RenderM σ Unit) := by
  apply ofSink_settles
  intro sink e he
  unfold Sink.flush at he
  dsimp only at he
  split at he
  . cases he
  . cases he
    rintro name ⟨⟩

theorem register_settles {path : String} {fragment : Fragment} (h : c.Registered path fragment) :
    c.Settles l (fun _ => True) fun _ => (register path fragment : RenderM σ Unit) :=
  .const fun _ hs => ⟨c.insert hs h, .ok trivial⟩

theorem partial?_settles {path : String} (h : c.Shown path) :
    c.Settles l (∀ fragment ∈ ·, c.Inside fragment) fun _ => (partial? path : RenderM σ (Option Fragment)) :=
  .const fun _ hs => ⟨hs, .ok fun _ => c.registered hs h⟩

theorem templateAt_settles {path : String} :
    c.Settles l (fun found => ∀ template, found = .ok template → engine.loadTemplate path = .ok template)
      fun _ => engine.templateAt path := by
  unfold Settings.templateAt
  split
  next template hload =>
    apply Settles.log.bind
    intro _ _
    apply Settles.pure
    rintro _ ⟨⟩
    exact hload
  . apply Settles.pure
    rintro _ ⟨⟩

structure Renders (c : Regime engine) (l : Filter ι) (renderers : ι → Renderer σ) : Prop where
  settles {fragment : Fragment} {scope : Scope σ} : c.Inside fragment → scope.Within c.toHorizon →
    c.Settles l (fun _ => True) fun i => renderers i fragment scope

end Regime

end Mustache
