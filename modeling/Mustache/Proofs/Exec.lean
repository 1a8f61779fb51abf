import Mustache.Render.Monad

/-!
This module contains what parts of a render come to, state and result together, one bind after another.
-/

namespace Mustache

variable {σ α β : Type}

namespace RenderM

/--
What a part of a render comes to from a given state.
-/
def exec (x : RenderM σ α) (s : RenderState σ) : Except Failure α × RenderState σ :=
  x.run.run s

theorem exec_bind {x : RenderM σ α} {f : α → RenderM σ β} {s t : RenderState σ} {a : α}
    (h : exec x s = (.ok a, t)) : exec (x >>= f) s = exec (f a) t := by
  change (ExceptT.bindCont f (exec x s).1).run (exec x s).2 = _
  rw [h]
  rfl

theorem exec_bind_error {x : RenderM σ α} {f : α → RenderM σ β} {s t : RenderState σ} {e : Failure}
    (h : exec x s = (.error e, t)) : exec (x >>= f) s = (.error e, t) := by
  change (ExceptT.bindCont f (exec x s).1).run (exec x s).2 = _
  rw [h]
  rfl

theorem ofExcept_ok (a : α) : ofExcept (.ok a) = (pure a : RenderM σ α) := rfl

theorem exec_ofHost {x : StateM σ α} {s : RenderState σ} {a : α} {host : σ} (h : x.run s.host = (a, host)) :
    exec (ofHost x) s = (.ok a, { s with host }) := by
  change (Except.ok (x.run s.host).1, { s with host := (x.run s.host).2 }) = _
  rw [h]

theorem exec_ofCall {x : ExceptT Error (StateM σ) α} {s : RenderState σ} {a : α} {host : σ}
    (h : x.run.run s.host = (.ok a, host)) : exec (ofCall x) s = (.ok a, { s with host }) := by
  unfold ofCall
  rw [exec_bind (exec_ofHost h)]
  rfl

theorem exec_ofSink (x : Sink → Except Error Unit × Sink) (s : RenderState σ) :
    exec (ofSink x) s = ((x s.sink).1.mapError .error, { s with sink := (x s.sink).2 }) := by
  change exec (ofExcept (x s.sink).1) { s with sink := (x s.sink).2 } = _
  cases (x s.sink).1 <;> rfl

theorem exec_log (r : LogRecord) (s : RenderState σ) : exec (log r) s = (.ok (), { s with log := s.log ++ [r] }) := rfl

theorem exec_bind_congr {x y : RenderM σ α} {f : α → RenderM σ β} {s t : RenderState σ} (h : exec x s = exec y t) :
    exec (x >>= f) s = exec (y >>= f) t := by
  change (ExceptT.bindCont f (exec x s).1).run (exec x s).2 = (ExceptT.bindCont f (exec y t).1).run (exec y t).2
  rw [h]

theorem exec_capture_eq (x : RenderM σ Unit) (s : RenderState σ) :
    exec (capture x) s =
      match exec x { s with sink := {} } with
      | (.ok (), t) => (.ok t.sink.written, { t with sink := s.sink })
      | (.error e, t) => (.error e, { t with sink := s.sink }) := rfl

theorem exec_capture {x : RenderM σ Unit} {s t : RenderState σ} (h : exec x { s with sink := {} } = (.ok (), t)) :
    exec (capture x) s = (.ok t.sink.written, { t with sink := s.sink }) := by
  rw [exec_capture_eq, h]

theorem exec_capture_error {x : RenderM σ Unit} {s t : RenderState σ} {e : Failure}
    (h : exec x { s with sink := {} } = (.error e, t)) :
    exec (capture x) s = (.error e, { t with sink := s.sink }) := by
  rw [exec_capture_eq, h]

theorem exec_isolated (x : RenderM σ α) (s : RenderState σ) :
    exec (isolated x) s =
      ((exec x { s with partials := ∅ }).1, { (exec x { s with partials := ∅ }).2 with partials := s.partials }) := rfl

theorem capture_write (x : RenderM σ Unit) : capture (capture x >>= write) = capture x := by
  funext s
  change exec (capture (capture x >>= write)) s = exec (capture x) s
  cases hx : exec x { s with sink := {} } with
  | mk result t =>
    cases result with
    | error e =>
      have hinner : exec (capture x) { s with sink := {} } = (.error e, { t with sink := {} }) :=
        exec_capture_error hx
      rw [exec_capture_error (exec_bind_error hinner), exec_capture_error hx]
    | ok u =>
      -- the inner text is written into an empty sink, so the outer one is the same text
      have hinner : exec (capture x) { s with sink := {} } = (.ok t.sink.written, { t with sink := {} }) :=
        exec_capture hx
      have hwrite : exec (write t.sink.written) { t with sink := {} } =
          (.ok (), { t with sink := { written := t.sink.written } }) := by
        change (Except.ok (), { t with sink := { written := "" ++ t.sink.written } }) = _
        rw [String.empty_append]
      rw [exec_capture ((exec_bind hinner).trans hwrite), exec_capture hx]

end RenderM

end Mustache
