import Mathlib.Data.List.Induction
import Mustache.Source.Position

/-!
This module contains the order of the places in a text. The main statement is that places come in the order of the
characters, so there are no two characters in one place.
-/

namespace Mustache

namespace Position

/--
A place comes before another one in the order of reading: in an earlier line, or further to the left in the same line.
-/
def Precedes (p q : Position) : Prop :=
  p.line < q.line ∨ p.line = q.line ∧ p.column < q.column

instance (p q : Position) : Decidable (p.Precedes q) :=
  inferInstanceAs (Decidable (_ ∨ _))

variable {p q r : Position}

theorem not_precedes_self (p : Position) : ¬p.Precedes p := by
  unfold Precedes
  omega

theorem Precedes.trans (hpq : p.Precedes q) (hqr : q.Precedes r) : p.Precedes r := by
  unfold Precedes at *
  omega

theorem precedes_next (p : Position) (c : Char) : p.Precedes (p.next c) := by
  unfold next
  split
  . exact .inl (Nat.lt_succ_self _)
  . exact .inr ⟨rfl, Nat.lt_succ_self _⟩

theorem precedes_advance (p : Position) {cs : List Char} (h : cs ≠ []) : p.Precedes (p.advance cs) := by
  induction cs generalizing p with
  | nil => exact absurd rfl h
  | cons c cs ih =>
    by_cases hcs : cs = []
    . rw [hcs]
      exact precedes_next p c
    . exact (precedes_next p c).trans (ih (p.next c) hcs)

theorem advance_first (cs : List Char) :
    first.advance cs = ⟨cs.count '\n' + 1, (cs.reverse.takeWhile (· ≠ '\n')).length + 1⟩ := by
  induction cs using List.reverseRecOn with
  | nil => rfl
  | append_singleton cs c ih =>
    rw [advance_append, ih]
    change Position.next _ c = _
    unfold next
    split
    next hc => simp [hc]
    next hc => simp [hc]

end Position

/--
The place of a character of a text, given the number of characters before it.
-/
def placeAt (cs : List Char) (offset : Nat) : Position :=
  Position.first.advance (cs.take offset)

theorem placeAt_append (before after : List Char) :
    placeAt (before ++ after) before.length = Position.first.advance before := by
  rw [placeAt, List.take_left]

theorem precedes_placeAt {cs : List Char} {i j : Nat} (hij : i < j) (hj : j ≤ cs.length) :
    (placeAt cs i).Precedes (placeAt cs j) := by
  have hsplit : cs.take j = cs.take i ++ (cs.drop i).take (j - i) := by
    rw [← List.take_add]
    congr
    omega
  have hne : (cs.drop i).take (j - i) ≠ [] := by
    apply List.ne_nil_of_length_pos
    rw [List.length_take, List.length_drop]
    omega
  rw [placeAt, placeAt, hsplit, Position.advance_append]
  exact Position.precedes_advance _ hne

theorem placeAt_inj {cs : List Char} {i j : Nat} (hi : i ≤ cs.length) (hj : j ≤ cs.length) :
    placeAt cs i = placeAt cs j ↔ i = j := by
  refine ⟨fun heq => ?_, congrArg _⟩
  rcases Nat.lt_trichotomy i j with hlt | hij | hlt
  . have hprecedes := precedes_placeAt hlt hj
    rw [heq] at hprecedes
    exact absurd hprecedes (Position.not_precedes_self _)
  . exact hij
  . have hprecedes := precedes_placeAt hlt hi
    rw [heq] at hprecedes
    exact absurd hprecedes (Position.not_precedes_self _)

end Mustache
