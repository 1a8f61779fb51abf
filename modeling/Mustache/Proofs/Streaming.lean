import Mustache.Proofs.Quiet
import Mustache.Proofs.Sections

/-!
This module contains how rendered text gets into a sink. The main statement is that a sink with limited room gets as
much of the text as it has room for, and that the text is finished only if all of it was written.
-/

namespace Mustache

open RenderM

variable {σ α β : Type}

theorem utf8_empty : utf8 "" = [] := rfl

theorem utf8_append (s t : String) : utf8 (s ++ t) = utf8 s ++ utf8 t := by
  simp [utf8]

namespace Sink

variable {s : Sink} {text first second : String}

def Takes (s : Sink) (text : String) : Prop :=
  ∀ room ∈ s.room, (utf8 text).length ≤ room

instance (s : Sink) (text : String) : Decidable (s.Takes text) :=
  inferInstanceAs (Decidable (∀ room ∈ s.room, _))

def push (s : Sink) (text : String) : Sink :=
  { s with written := s.written ++ text, room := s.room.map (· - (utf8 text).length) }

theorem takes_empty (s : Sink) : s.Takes "" := by
  intro room _
  simp [utf8_empty]

theorem takes_of_unlimited (h : s.room = none) : s.Takes text := by
  intro room hroom
  rw [h] at hroom
  cases hroom

theorem push_empty (s : Sink) : s.push "" = s := by
  simp [push, utf8_empty]

theorem push_append (s : Sink) (first second : String) : (s.push first).push second = s.push (first ++ second) := by
  simp [push, utf8_append, String.append_assoc, Function.comp_def, Nat.sub_sub]

theorem takes_append : s.Takes (first ++ second) ↔ s.Takes first ∧ (s.push first).Takes second := by
  unfold Takes
  rw [utf8_append, List.length_append]
  cases hroom : s.room with
  | none => simp [push, hroom]
  | some room =>
    simp only [push, hroom, Option.mem_def, Option.some.injEq, Option.map_some, forall_eq']
    omega

theorem received_push (hcut : s.cut = []) (text : String) : (s.push text).received = s.received ++ utf8 text := by
  simp [received, push, hcut, utf8_append]

def receivedOf (s : Sink) (text : String) : List UInt8 :=
  s.received ++ (utf8 text).take (s.room.getD (utf8 text).length)

theorem receivedOf_append_of_takes (hcut : s.cut = []) (h : s.Takes first) :
    (s.push first).receivedOf second = s.receivedOf (first ++ second) := by
  unfold receivedOf
  rw [received_push hcut, utf8_append, List.append_assoc]
  cases hroom : s.room with
  | none => simp [push, hroom, List.take_of_length_le]
  | some room =>
    have hle := h room hroom
    simp [push, hroom, List.take_append, List.take_of_length_le hle]

theorem receivedOf_append_of_not_takes (h : ¬ s.Takes first) (second : String) :
    s.receivedOf (first ++ second) = s.receivedOf first := by
  unfold receivedOf
  cases hroom : s.room with
  | none => simp [Takes, hroom] at h
  | some room =>
    have hlt : room < (utf8 first).length := by simpa [Takes, hroom] using h
    rw [utf8_append, Option.getD_some, Option.getD_some, List.take_append_of_le_length (by omega)]

theorem write_of_takes (h : s.Takes text) : s.write text = (.ok (), s.push text) := by
  unfold write push
  cases hroom : s.room with
  | none => rfl
  | some room => simp [h room hroom]

theorem write_of_not_takes (h : ¬ s.Takes text) :
    ∃ t, s.write text = (.error (.writing s.refusal), t) ∧ t.received = s.receivedOf text ∧
      t.flushes = s.flushes := by
  unfold write receivedOf
  cases hroom : s.room with
  | none => simp [Takes, hroom] at h
  | some room =>
    have hlt : ¬ (utf8 text).length ≤ room := by simpa [Takes, hroom] using h
    simp only [hlt, ↓reduceIte]
    exact ⟨_, rfl, by simp [received], rfl⟩

end Sink

namespace RenderM

/--
A part of a render that comes to the same with every sink. All that the sink decides is how far it gets: if there is
too little room, the sink takes what there is room for.
-/
def Streams (x : RenderM σ α) : Prop :=
  ∀ s : RenderState σ, ∃ text result, ∃ t : RenderState σ, ∀ sink : Sink,
    (sink.Takes text → exec x { s with sink } = (result, { t with sink := sink.push text })) ∧
    (¬ sink.Takes text → sink.cut = [] →
      ∃ u, exec x { s with sink } = (.error (.error (.writing sink.refusal)), u) ∧
        u.sink.received = sink.receivedOf text ∧ u.sink.flushes = sink.flushes)

theorem Quiet.streams {x : RenderM σ α} (h : Quiet x) : Streams x := by
  intro s
  refine ⟨"", (exec x s).1, (exec x s).2, fun sink => ⟨fun _ => ?_, fun hroom => absurd sink.takes_empty hroom⟩⟩
  rw [Sink.push_empty, h s sink]

theorem streams_write {text : String} : Streams (write text : RenderM σ Unit) := by
  intro s
  have hwrite {sink : Sink} {result : Except Error Unit} {t : Sink} (h : sink.write text = (result, t)) :
      exec (write text) { s with sink } = (result.mapError .error, { s with sink := t }) := by
    rw [write, exec_ofSink, h]
  refine ⟨text, .ok (), s, fun sink => ⟨fun htakes => ?_, fun htakes _ => ?_⟩⟩
  . exact hwrite (Sink.write_of_takes htakes)
  . obtain ⟨t, ht, hreceived, hflushes⟩ := Sink.write_of_not_takes htakes
    exact ⟨_, hwrite ht, hreceived, hflushes⟩

theorem Streams.bind {x : RenderM σ α} {f : α → RenderM σ β} (hx : Streams x) (hf : ∀ a, Streams (f a)) :
    Streams (x >>= f) := by
  intro s
  obtain ⟨first, result, t, hx⟩ := hx s
  cases result with
  | error e =>
    refine ⟨first, .error e, t, fun sink => ⟨fun htakes => ?_, fun htakes hcut => ?_⟩⟩
    . exact exec_bind_error ((hx sink).1 htakes)
    . obtain ⟨u, hu, hreceived⟩ := (hx sink).2 htakes hcut
      exact ⟨u, exec_bind_error hu, hreceived⟩
  | ok a =>
    obtain ⟨second, result, u, hf⟩ := hf a t
    refine ⟨first ++ second, result, u, fun sink => ⟨fun htakes => ?_, fun htakes hcut => ?_⟩⟩
    . obtain ⟨hfirst, hsecond⟩ := Sink.takes_append.1 htakes
      rw [exec_bind ((hx sink).1 hfirst), (hf _).1 hsecond, Sink.push_append]
    . by_cases hfirst : sink.Takes first
      . have hsecond : ¬ (sink.push first).Takes second := fun h => htakes (Sink.takes_append.2 ⟨hfirst, h⟩)
        obtain ⟨v, hv, hreceived, hflushes⟩ := (hf _).2 hsecond hcut
        refine ⟨v, (exec_bind ((hx sink).1 hfirst)).trans hv, ?_, hflushes⟩
        rw [hreceived, Sink.receivedOf_append_of_takes hcut hfirst]
      . obtain ⟨v, hv, hreceived, hflushes⟩ := (hx sink).2 hfirst hcut
        refine ⟨v, exec_bind_error hv, ?_, hflushes⟩
        rw [hreceived, Sink.receivedOf_append_of_not_takes hfirst]

theorem capture_text (text : String) : capture (write text) = (pure text : RenderM σ String) := by
  funext s
  change (Except.ok ("" ++ text), s) = (Except.ok text, s)
  rw [String.empty_append]

theorem Quiet.capture_bind {x : RenderM σ α} (hx : Quiet x) (f : α → RenderM σ Unit) :
    capture (x >>= f) = x >>= fun a => capture (f a) := by
  funext s
  change exec (capture (x >>= f)) s = exec (x >>= fun a => capture (f a)) s
  have hempty := hx s {}
  have hown := hx s s.sink
  cases h : exec x s with
  | mk result t =>
    -- the sink is the one that the part was given
    have hsink : t = { t with sink := s.sink } := by
      rw [h] at hown
      exact congrArg Prod.snd hown
    rw [h] at hempty
    cases result with
    | error e => rw [exec_capture_error (exec_bind_error hempty), exec_bind_error h, ← hsink]
    | ok a =>
      rw [exec_capture_eq, exec_bind hempty, exec_bind h, exec_capture_eq, hsink]

theorem Quiet.capture_eq {x : RenderM σ Unit} (hx : Quiet x) : capture x = x >>= fun _ => pure "" := by
  have hbind := hx.capture_bind pure
  rwa [bind_pure] at hbind

theorem exec_capture_of_streams {x : RenderM σ Unit} {s t : RenderState σ} {text : String}
    {result : Except Failure Unit} (h : exec x { s with sink := {} } = (result, { t with sink := Sink.push {} text })) :
    exec (capture x) s = (result.map fun _ => text, { t with sink := s.sink }) := by
  rw [exec_capture_eq, h]
  cases result with
  | error e => rfl
  | ok u => simp [Sink.push, Except.map]

theorem Streams.capture_append {x y : RenderM σ Unit} (hx : Streams x) (hy : Streams y) :
    capture (x >>= fun _ => y) = (do return (← capture x) ++ (← capture y)) := by
  funext s
  change exec (capture (x >>= fun _ => y)) s = exec (do return (← capture x) ++ (← capture y)) s
  obtain ⟨first, result, t, hx⟩ := hx s
  have hfirst := (hx {}).1 (Sink.takes_of_unlimited rfl)
  have hcaptured := exec_capture_of_streams hfirst
  cases result with
  | error e => rw [exec_capture_error (exec_bind_error hfirst), exec_bind_error hcaptured]
  | ok u =>
    obtain ⟨second, result, v, hy⟩ := hy t
    have hsecond := (hy {}).1 (Sink.takes_of_unlimited rfl)
    have hboth : exec (x >>= fun _ => y) { s with sink := {} } =
        (result, { v with sink := Sink.push {} (first ++ second) }) := by
      rw [exec_bind hfirst, (hy _).1 (Sink.takes_of_unlimited rfl), Sink.push_append]
    rw [exec_capture_of_streams hboth, exec_bind hcaptured]
    have hrest : exec (capture y) { t with sink := s.sink } = (result.map fun _ => second, { v with sink := s.sink }) :=
      exec_capture_of_streams (s := { t with sink := s.sink }) hsecond
    cases result with
    | error e => rw [exec_bind_error hrest]; rfl
    | ok u => rw [exec_bind hrest]; rfl

end RenderM

theorem writeOutput_streams {escapes : Bool} {output : Option Output} :
    Streams (writeOutput escapes output : RenderM σ Unit) := by
  unfold writeOutput
  split
  . exact quiet_pure.streams
  . exact streams_write
  . exact streams_write

namespace Walk

variable {w : Walk σ}

variable (hhelpers : w.engine.helpers.Quiet) (hrenderer : ∀ fragment scope, Streams (w.renderer fragment scope))
include hhelpers

theorem renderVariable_streams {scope : Scope σ} {call : Call} {escape : Escape} :
    Streams (w.renderVariable scope call escape) := by
  unfold renderVariable
  split
  next helper hname => exact (callHelper_quiet (hhelpers.function hname)).streams.bind fun _ => writeOutput_streams
  next =>
    apply quiet_ofHost.streams.bind
    intro found
    cases found with
    | some value => exact valueText_quiet.streams.bind fun _ => streams_write
    | none => exact quiet_log.streams

theorem renderBlock_streams {scope : Scope σ} {opening : Opening} {body inverse : Option Fragment} :
    Streams (w.renderBlock scope opening body inverse) := by
  unfold renderBlock
  split
  . exact quiet_throw.streams
  . split
    next helper hname =>
      exact (callHelper_quiet (hhelpers.function hname)).streams.bind fun _ => writeOutput_streams
    next => exact implicitOutput_quiet.streams.bind fun _ => writeOutput_streams

include hrenderer

omit hhelpers in
theorem renderInclusion_streams {scope : Scope σ} {path : String} : Streams (w.renderInclusion scope path) := by
  apply quiet_partial?.streams.bind
  intro found
  cases found with
  | some fragment => exact hrenderer _ _
  | none =>
    apply (BuiltIn.templateAt_quiet).streams.bind
    intro found
    cases found with
    | ok template => exact hrenderer _ _
    | error e => exact quiet_throw.streams

theorem renderNode_streams {scope : Scope σ} : (node : Node) → Streams (w.renderNode scope node)
  | .literal _ => streams_write
  | .comment _ => quiet_pure.streams
  | .variable .. => renderVariable_streams hhelpers
  | .inclusion _ => renderInclusion_streams hrenderer
  | .block .. => renderBlock_streams hhelpers

theorem renderNodes_streams {scope : Scope σ} {fragment : Fragment} : Streams (w.renderNodes scope fragment) := by
  induction fragment with
  | nil => exact quiet_pure.streams
  | cons node nodes ih => exact (renderNode_streams hhelpers hrenderer node).bind fun _ => ih

end Walk

namespace Engine

variable {engine : Engine σ}

theorem renderer_streams (hhelpers : engine.helpers.Quiet) (depth : Nat) (fragment : Fragment) (scope : Scope σ) :
    Streams (engine.renderer depth fragment scope) := by
  induction depth generalizing fragment scope with
  | zero => exact quiet_throw.streams
  | succ depth ih => exact Walk.renderNodes_streams hhelpers ih

variable {depth : Nat} {template : Template} {model : Value}

theorem apply_run {s : RenderState σ} {sink : Sink} {result : Except Failure Unit} {t : RenderState σ}
    (h : exec (engine.renderer depth template.fragment (engine.rootScope model) >>= fun _ => flush)
      { s with sink, partials := ∅ } = (result, t)) :
    ((engine.apply depth template model sink).run s).1 = (result, t.sink) :=
  congrArg (fun run => (run.1, run.2.sink)) h

theorem exec_render {s : RenderState σ} {result : Except Failure Unit} {t : RenderState σ}
    (h : exec (engine.renderer depth template.fragment (engine.rootScope model)) { s with sink := {}, partials := ∅ } =
      (result, t)) :
    (exec (engine.render depth template model) s).1 = result.map fun _ => t.sink.written := by
  change (exec (capture _) { s with partials := ∅ }).1 = _
  rw [exec_capture_eq, h]
  cases result <;> rfl

theorem exists_apply (hhelpers : engine.helpers.Quiet) (depth : Nat) (template : Template) (model : Value)
    (s : RenderState σ) :
    ∃ text, ∃ result : Except Failure Unit,
      (exec (engine.render depth template model) s).1 = (result.map fun _ => text) ∧
      ∀ room refusal flushRefusal,
        let run := ((engine.apply depth template model { room, refusal, flushRefusal }).run s).1
        ((∀ limit ∈ room, (utf8 text).length ≤ limit) →
          run.2.received = utf8 text ∧
          match result with
          | .ok () =>
            run.1 = (match flushRefusal with
              | none => .ok ()
              | some cause => .error (.error (.flushing cause))) ∧
            run.2.flushes = 1
          | .error e => run.1 = .error e ∧ run.2.flushes = 0) ∧
        (∀ limit ∈ room, limit < (utf8 text).length →
          run.1 = .error (.error (.writing refusal)) ∧ run.2.received = (utf8 text).take limit ∧
          run.2.flushes = 0) := by
  obtain ⟨text, result, t, hwalk⟩ :=
    renderer_streams hhelpers depth template.fragment (engine.rootScope model) { s with partials := ∅ }
  refine ⟨text, result, ?_, fun room refusal flushRefusal => ⟨fun hroom => ?_, fun limit hlimit hlt => ?_⟩⟩
  . rw [exec_render (s := s) ((hwalk {}).1 (Sink.takes_of_unlimited rfl))]
    simp [Sink.push]
  . have hdone := (hwalk { room, refusal, flushRefusal }).1 hroom
    cases result with
    | error e =>
      rw [apply_run (s := s) (exec_bind_error hdone)]
      exact ⟨by simp [Sink.received, Sink.push], rfl, rfl⟩
    | ok u =>
      rw [apply_run (s := s) ((exec_bind hdone).trans (exec_ofSink ..))]
      refine ⟨by simp [Sink.received, Sink.push, Sink.flush], ?_, rfl⟩
      cases flushRefusal <;> rfl
  . have hshort : ¬ ({ room, refusal, flushRefusal } : Sink).Takes text :=
      fun htakes => absurd (htakes limit hlimit) (by omega)
    obtain ⟨u, hu, hreceived, hflushes⟩ := (hwalk _).2 hshort rfl
    rw [apply_run (s := s) (exec_bind_error hu)]
    refine ⟨rfl, ?_, hflushes⟩
    rw [hreceived, Sink.receivedOf, hlimit]
    rfl

end Engine

def Error.Reports (e : Error) (message cause : String) : Prop :=
  e.kind = .render ∧ e.message = message ∧ e.causes = [cause]

namespace Engine

/--
What a sink receives is the beginning of what a sink without limit receives, and that is the text of the render. Behind
a text that got through as a whole the sink is asked to finish it, and at no other time.
-/
theorem apply_cut (engine : Engine σ) (hhelpers : engine.helpers.Quiet) (depth : Nat) (template : Template)
    (model : Value) (s : RenderState σ) :
    let run (sink : Sink) := ((engine.apply depth template model sink).run s).1
    let rendered := (exec (engine.render depth template model) s).1
    let whole := run {}
    let bytes := whole.2.received
    (∀ text, rendered = .ok text → whole.1 = .ok () ∧ bytes = utf8 text) ∧
    (∀ e, rendered = .error e → whole.1 = .error e) ∧
    (∀ limit refusal flushRefusal,
      let cut := run { room := some limit, refusal, flushRefusal }
      cut.2.received = bytes.take limit ∧
      (bytes.length ≤ limit → flushRefusal = none → cut.1 = whole.1) ∧
      (limit < bytes.length → cut.2.flushes = 0 ∧
        ∃ e, cut.1 = .error (.error e) ∧ e.Reports "writing output failed" refusal)) ∧
    (∀ room refusal flushRefusal, (∀ limit ∈ room, bytes.length ≤ limit) →
      let full := run { room, refusal, flushRefusal }
      full.2.received = bytes ∧
      (whole.1 = .ok () → full.2.flushes = 1 ∧
        ∀ cause ∈ flushRefusal, ∃ e, full.1 = .error (.error e) ∧ e.Reports "flushing output failed" cause) ∧
      (∀ e, whole.1 = .error e → full.2.flushes = 0 ∧ full.1 = .error e)) := by
  intro run rendered whole bytes
  obtain ⟨text, result, hrendered, hrun⟩ := exists_apply hhelpers depth template model s
  obtain ⟨hbytes, hresult⟩ := (hrun none "" none).1 fun _ hroom => nomatch hroom
  replace hbytes : bytes = utf8 text := hbytes
  replace hresult : whole.1 = result := by
    cases result <;> exact hresult.1
  rw [hresult, hbytes]
  refine ⟨fun text' htext => ?_, fun e he => ?_, fun limit refusal flushRefusal => ?_,
    fun room refusal flushRefusal hroom => ?_⟩
  . cases result with
    | error e => cases hrendered.symm.trans htext
    | ok u =>
      cases hrendered.symm.trans htext
      exact ⟨rfl, rfl⟩
  . cases result with
    | error e =>
      cases hrendered.symm.trans he
      rfl
    | ok u => cases hrendered.symm.trans he
  . by_cases hroom : (utf8 text).length ≤ limit
    . obtain ⟨hreceived, hend⟩ := (hrun (some limit) refusal flushRefusal).1 (by simpa using hroom)
      refine ⟨hreceived.trans (List.take_of_length_le hroom).symm, fun _ hflush => ?_,
        fun hlt => absurd hroom (by omega)⟩
      subst hflush
      cases result <;> exact hend.1
    . obtain ⟨hend, hreceived, hflushes⟩ := (hrun (some limit) refusal flushRefusal).2 limit rfl (by omega)
      exact ⟨hreceived, fun hle => absurd hle hroom, fun _ => ⟨hflushes, _, hend, rfl, rfl, rfl⟩⟩
  . obtain ⟨hreceived, hend⟩ := (hrun room refusal flushRefusal).1 hroom
    refine ⟨hreceived, fun hok => ?_, fun e he => ?_⟩
    . subst hok
      refine ⟨hend.2, fun cause hcause => ?_⟩
      cases hcause
      exact ⟨_, hend.1, rfl, rfl, rfl⟩
    . subst he
      exact ⟨hend.2, hend.1⟩

theorem apply_cut_inside_character :
    let stop : HelperFunction Unit := fun _ _ => fail (.custom "stopped")
    let engine : Engine Unit := { inert with helpers := Helpers.builtIns.insert "stop" (.custom stop) }
    let fragment : Fragment := [.literal "aé", .variable { name := "stop" } .html]
    let run (sink : Sink) := ((engine.apply 1 { fragment, source := "" } .null sink).run { host := () }).1
    engine.helpers.Quiet ∧
      (run {}).1 = .error (.error (.custom "stopped")) ∧ (run {}).2.received = [0x61, 0xc3, 0xa9] ∧
      (run { room := some 2, refusal := "closed" }).2.received = [0x61, 0xc3] ∧
      ∃ e, (run { room := some 2, refusal := "closed" }).1 = .error (.error e) ∧
        e.Reports "writing output failed" "closed" := by
  intro stop engine fragment run
  have hquiet : engine.helpers.Quiet := by
    intro name function h
    rw [Dict.get?_insert] at h
    split at h
    . cases h
      exact fun _ _ => quiet_throw
    . exact Helpers.builtIns_quiet name function h
  have hbytes : (run {}).2.received = [0x61, 0xc3, 0xa9] := by
    change utf8 "aé" ++ [] = _
    decide
  obtain ⟨-, -, hcut, -⟩ := apply_cut engine hquiet 1 { fragment, source := "" } .null { host := () }
  obtain ⟨hreceived, -, hshort⟩ := hcut 2 "closed" none
  refine ⟨hquiet, by rfl, hbytes, ?_, (hshort ?_).2⟩
  . rw [show (run _).2.received = _ from hreceived, hbytes]
    rfl
  . rw [hbytes]
    decide

end Engine

end Mustache
