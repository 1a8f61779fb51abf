/-!
This module contains what a whole run of steps keeps, given what one step keeps. A step may fail, and then the run
fails with it.
-/

namespace Mustache

variable {ε α β : Type} {step : β → α → Except ε β}

theorem run_cons (b : β) (x : α) (xs : List α) :
    (x :: xs).foldlM step b = (step b x).bind fun next => xs.foldlM step next :=
  List.foldlM_cons

theorem run_append (b : β) (xs ys : List α) :
    (xs ++ ys).foldlM step b = (xs.foldlM step b).bind fun next => ys.foldlM step next :=
  List.foldlM_append

theorem run_invariant_from {Holds : List α → β → Prop}
    (hstep : ∀ {done b x next}, Holds done b → step b x = .ok next → Holds (done ++ [x]) next)
    (done : List α) {xs : List α} {b final : β} (hb : Holds done b) (h : xs.foldlM step b = .ok final) :
    Holds (done ++ xs) final := by
  induction xs generalizing done b with
  | nil =>
    cases h
    rwa [List.append_nil]
  | cons x xs ih =>
    rw [run_cons] at h
    cases hx : step b x with
    | error e =>
      rw [hx] at h
      cases h
    | ok next =>
      rw [hx] at h
      have := ih (done ++ [x]) (hstep hb hx) h
      rwa [List.append_assoc] at this

/--
An invariant that every step keeps holds behind a run, of all that the run has read.
-/
theorem run_invariant (Holds : List α → β → Prop)
    (hstep : ∀ {done b x next}, Holds done b → step b x = .ok next → Holds (done ++ [x]) next)
    {xs : List α} {b final : β} (hb : Holds [] b) (h : xs.foldlM step b = .ok final) : Holds xs final :=
  run_invariant_from hstep [] hb h

theorem run_eq_error {xs : List α} {b : β} {e : ε} (h : xs.foldlM step b = .error e) :
    ∃ done x more mid, xs = done ++ x :: more ∧ done.foldlM step b = .ok mid ∧ step mid x = .error e := by
  induction xs generalizing b with
  | nil => cases h
  | cons x xs ih =>
    rw [run_cons] at h
    cases hx : step b x with
    | error fault =>
      rw [hx] at h
      cases h
      exact ⟨[], x, xs, b, rfl, rfl, hx⟩
    | ok next =>
      rw [hx] at h
      obtain ⟨done, y, more, mid, rfl, hdone, hy⟩ := ih h
      refine ⟨x :: done, y, more, mid, rfl, ?_, hy⟩
      rw [run_cons, hx]
      exact hdone

theorem run_map {moveItem : α → α} {moveState : β → β} {moveError : ε → ε}
    (hstep : ∀ b x, step (moveState b) (moveItem x) = ((step b x).map moveState).mapError moveError)
    (xs : List α) (b : β) :
    (xs.map moveItem).foldlM step (moveState b) = ((xs.foldlM step b).map moveState).mapError moveError := by
  induction xs generalizing b with
  | nil => rfl
  | cons x xs ih =>
    rw [List.map_cons, run_cons, run_cons, hstep]
    cases step b x with
    | error fault => rfl
    | ok next => exact ih next

end Mustache
