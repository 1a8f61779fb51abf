import Mustache.Text.Search

/-!
This module contains lemmas about the first occurrence of a pattern: when a pattern that is put behind a text is
first found there.
-/

namespace Mustache.Text

section

variable (p : Char → Prop) [DecidablePred p]

-- What holds of the characters of a text is decided along the text, not along all characters there are.
instance decidableForallMem (cs : List Char) : Decidable (∀ c ∈ cs, p c) :=
  List.decidableBAll p cs

instance decidableExistsMem (cs : List Char) : Decidable (∃ c ∈ cs, p c) :=
  List.decidableBEx p cs

instance decidableForallMemOption (c? : Option Char) : Decidable (∀ c ∈ c?, p c) :=
  Option.decidableForallMem c?

end

variable {pattern text : List Char}

theorem head?_of_append_eq {cs ds rest more : List Char} (heq : cs ++ rest = ds ++ more) (hcs : cs ≠ [])
    (hds : ds ≠ []) : cs.head? = ds.head? := by
  have hhead := congrArg List.head? heq
  rwa [List.head?_append, List.head?_append, Option.or_of_isSome (by simp [hcs]),
    Option.or_of_isSome (by simp [hds])] at hhead

/--
A pattern that is put behind the text is first found there.
-/
def Clears (pattern text : List Char) : Prop :=
  breakOn pattern (text ++ pattern) = (text, pattern)

instance (pattern text : List Char) : Decidable (Clears pattern text) :=
  inferInstanceAs (Decidable (_ = _))

theorem breakOn_of_starts {cs : List Char} (hpattern : pattern ≠ []) (h : pattern <+: cs) :
    breakOn pattern cs = ([], cs) := by
  cases cs with
  | nil => rfl
  | cons c cs =>
    rw [← List.isPrefixOf_iff_prefix] at h
    simp [breakOn, hpattern, h]

theorem breakOn_cons {c : Char} {cs : List Char} (h : ¬pattern <+: c :: cs) :
    breakOn pattern (c :: cs) = (c :: (breakOn pattern cs).1, (breakOn pattern cs).2) := by
  rw [← List.isPrefixOf_iff_prefix, Bool.not_eq_true] at h
  simp [breakOn, h]

theorem clears_nil (hpattern : pattern ≠ []) : Clears pattern [] :=
  breakOn_of_starts hpattern (by simp)

theorem clears_cons_iff (hpattern : pattern ≠ []) {c : Char} :
    Clears pattern (c :: text) ↔ ¬pattern <+: c :: text ++ pattern ∧ Clears pattern text := by
  unfold Clears
  rw [List.cons_append]
  by_cases h : pattern <+: c :: (text ++ pattern)
  . simp [breakOn_of_starts hpattern h, h]
  . simp [breakOn_cons h, h, Prod.ext_iff]

theorem prefix_append_iff (rest : List Char) :
    pattern <+: text ++ pattern ++ rest ↔ pattern <+: text ++ pattern := by
  constructor
  . intro h
    apply List.prefix_of_prefix_length_le h (List.prefix_append ..)
    simp
  . intro h
    exact h.trans (List.prefix_append ..)

theorem Clears.breakOn_append (hpattern : pattern ≠ []) (h : Clears pattern text) (rest : List Char) :
    breakOn pattern (text ++ pattern ++ rest) = (text, pattern ++ rest) := by
  induction text with
  | nil => exact breakOn_of_starts hpattern (List.prefix_append ..)
  | cons c text ih =>
    rw [clears_cons_iff hpattern] at h
    have hc : ¬pattern <+: c :: (text ++ pattern ++ rest) := by
      simpa only [List.cons_append, List.append_assoc] using mt (prefix_append_iff rest).1 h.1
    rw [List.cons_append, List.cons_append, breakOn_cons hc, ih h.2]

theorem Clears.breakOn_self (hpattern : pattern ≠ []) (h : Clears pattern text) :
    breakOn pattern text = (text, []) := by
  induction text with
  | nil => rfl
  | cons c text ih =>
    rw [clears_cons_iff hpattern] at h
    have hc : ¬pattern <+: c :: text := fun hp => h.1 (hp.trans (List.prefix_append ..))
    rw [breakOn_cons hc, ih h.2]

theorem Clears.of_append {init : List Char} (hpattern : pattern ≠ []) (h : Clears pattern (init ++ text)) :
    Clears pattern text := by
  induction init with
  | nil => exact h
  | cons c init ih =>
    rw [List.cons_append, clears_cons_iff hpattern] at h
    exact ih h.2

theorem Clears.of_breakOn {cs found : List Char} (hpattern : pattern ≠ []) (hfound : found ≠ [])
    (h : breakOn pattern cs = (text, found)) : Clears pattern text := by
  induction cs generalizing text with
  | nil =>
    cases h
    exact absurd rfl hfound
  | cons c cs ih =>
    by_cases hp : pattern <+: c :: cs
    . rw [breakOn_of_starts hpattern hp] at h
      cases h
      exact clears_nil hpattern
    . rw [breakOn_cons hp] at h
      cases h
      refine (clears_cons_iff hpattern).2 ⟨?_, ih rfl⟩
      -- a pattern that begins here would have been found first
      intro hbad
      apply hp
      obtain ⟨rest, hrest⟩ := (breakOn_found hfound).2
      have hcs := Text.breakOn_append pattern cs
      rw [← hrest, ← List.append_assoc] at hcs
      rw [← hcs]
      exact hbad.trans (List.prefix_append ..)

theorem breakOn_eq_found {cs found : List Char} (h : breakOn pattern cs = (text, found)) (hfound : found ≠ []) :
    pattern ≠ [] ∧ Clears pattern text ∧ ∃ rest, found = pattern ++ rest ∧ cs = text ++ (pattern ++ rest) := by
  have hf := @breakOn_found pattern cs (by rwa [h])
  have hcs := Text.breakOn_append pattern cs
  rw [h] at hf hcs
  obtain ⟨hpattern, rest, hrest⟩ := hf
  refine ⟨hpattern, .of_breakOn hpattern hfound h, rest, hrest.symm, ?_⟩
  rw [hrest]
  exact hcs.symm

theorem breakOn_not_infix (hpattern : pattern ≠ []) (cs : List Char) : ¬pattern <:+: (breakOn pattern cs).1 := by
  induction cs with
  | nil => simpa [breakOn] using hpattern
  | cons c cs ih =>
    by_cases hp : pattern <+: c :: cs
    . rw [breakOn_of_starts hpattern hp]
      simpa using hpattern
    . rw [breakOn_cons hp, List.infix_cons_iff]
      have hcut : (breakOn pattern cs).1 <+: cs := ⟨_, Text.breakOn_append pattern cs⟩
      rintro (hfirst | hlater)
      . exact hp (hfirst.trans (List.cons_prefix_cons.2 ⟨rfl, hcut⟩))
      . exact ih hlater

theorem Clears.prefix_of_eq (hpattern : pattern ≠ []) (h : Clears pattern text) {cs rest more : List Char}
    (heq : text ++ (pattern ++ rest) = cs ++ (pattern ++ more)) : text <+: cs := by
  induction text generalizing cs with
  | nil => exact List.nil_prefix
  | cons c text ih =>
    rw [clears_cons_iff hpattern] at h
    cases cs with
    | nil =>
      exfalso
      apply h.1
      rw [← prefix_append_iff rest, List.append_assoc, heq]
      exact List.prefix_append ..
    | cons d cs =>
      rw [List.cons_append, List.cons_append, List.cons.injEq] at heq
      obtain ⟨rfl, heq⟩ := heq
      exact List.cons_prefix_cons.2 ⟨rfl, ih h.2 heq⟩

theorem Clears.eq_nil_of_eq (hpattern : pattern ≠ []) (h : Clears pattern text) {before after : List Char}
    (heq : text ++ pattern = before ++ (pattern ++ after)) : after = [] := by
  have hnil : text ++ (pattern ++ []) = before ++ (pattern ++ after) := by rwa [List.append_nil]
  have hshort := (h.prefix_of_eq hpattern hnil).length_le
  have hlength := congrArg List.length heq
  simp only [List.length_append] at hlength
  exact List.length_eq_zero_iff.1 (by omega)

theorem Clears.exists_tail (hpattern : pattern ≠ []) (h : Clears pattern text) {cs rest more : List Char}
    (heq : text ++ (pattern ++ rest) = cs ++ (pattern ++ more)) :
    ∃ tail, cs = text ++ tail ∧ (∀ c ∈ tail.head?, c ∈ pattern.head?) ∧ (tail = [] → rest = more) := by
  obtain ⟨tail, rfl⟩ := h.prefix_of_eq hpattern heq
  rw [List.append_assoc, List.append_cancel_left_eq] at heq
  refine ⟨tail, rfl, ?_, ?_⟩
  . intro c hc
    have hne : tail ≠ [] := by
      rintro rfl
      cases hc
    rwa [head?_of_append_eq heq hpattern hne]
  . rintro rfl
    exact List.append_cancel_left heq

theorem clears_of_not_mem {c : Char} {pattern : List Char} (h : c ∉ text) : Clears (c :: pattern) text := by
  induction text with
  | nil => exact clears_nil (by simp)
  | cons d text ih =>
    simp only [List.mem_cons, not_or] at h
    refine (clears_cons_iff (by simp)).2 ⟨?_, ih h.2⟩
    intro hbad
    exact h.1 (List.cons_prefix_cons.1 hbad).1

theorem clears_of_second_not_mem {b c : Char} {pattern : List Char} (h : c ∉ text) :
    Clears (b :: c :: pattern) text := by
  induction text with
  | nil => exact clears_nil (by simp)
  | cons d text ih =>
    simp only [List.mem_cons, not_or] at h
    refine (clears_cons_iff (by simp)).2 ⟨?_, ih h.2⟩
    intro hbad
    obtain ⟨rfl, hnext⟩ := List.cons_prefix_cons.1 hbad
    cases text with
    | nil => exact h.1 (List.cons_prefix_cons.1 hnext).1
    | cons e text =>
      obtain ⟨rfl, -⟩ := List.cons_prefix_cons.1 hnext
      exact h.2 (by simp)

theorem splitOnce_of_not_mem {separator : Char} {cs : List Char} (h : separator ∉ cs) :
    splitOnce separator cs = none := by
  induction cs with
  | nil => rfl
  | cons c cs ih =>
    simp only [List.mem_cons, not_or] at h
    rw [splitOnce, if_neg (Ne.symm h.1), ih h.2, Option.map_none]

theorem splitOnce_append {separator : Char} {before : List Char} (h : separator ∉ before) (after : List Char) :
    splitOnce separator (before ++ separator :: after) = some (before, after) := by
  induction before with
  | nil => simp [splitOnce]
  | cons c before ih =>
    simp only [List.mem_cons, not_or] at h
    rw [List.cons_append, splitOnce, if_neg (Ne.symm h.1), ih h.2, Option.map_some]

theorem splitOnce_eq_some {separator : Char} {cs before after : List Char}
    (h : splitOnce separator cs = some (before, after)) : cs = before ++ separator :: after := by
  induction cs generalizing before with
  | nil => simp [splitOnce] at h
  | cons c cs ih =>
    simp only [splitOnce] at h
    split at h
    next hc =>
      cases h
      rw [hc, List.nil_append]
    . obtain ⟨⟨first, rest⟩, hsplit, heq⟩ := Option.map_eq_some_iff.1 h
      cases heq
      rw [ih hsplit, List.cons_append]

theorem not_mem_of_splitOnce {separator : Char} {cs : List Char} (h : splitOnce separator cs = none) :
    separator ∉ cs := by
  intro hmem
  obtain ⟨before, after, rfl, hfirst⟩ := List.eq_append_cons_of_mem hmem
  rw [splitOnce_append hfirst] at h
  cases h

theorem splitOnce_append_of_some {separator : Char} {cs before after : List Char}
    (h : splitOnce separator cs = some (before, after)) (rest : List Char) :
    splitOnce separator (cs ++ rest) = some (before, after ++ rest) := by
  induction cs generalizing before with
  | nil => simp [splitOnce] at h
  | cons c cs ih =>
    rw [List.cons_append]
    simp only [splitOnce] at h ⊢
    split at h
    next hc =>
      cases h
      rw [if_pos hc]
    next hc =>
      obtain ⟨⟨first, found⟩, hsplit, heq⟩ := Option.map_eq_some_iff.1 h
      cases heq
      rw [if_neg hc, ih hsplit, Option.map_some]

theorem splitAll_go_append {separator : Char} (piece before after : List Char) :
    splitAll.go separator piece (before ++ separator :: after) =
      splitAll.go separator piece before ++ splitAll separator after := by
  induction before generalizing piece with
  | nil => simp [splitAll.go, splitAll]
  | cons c before ih =>
    rw [List.cons_append, splitAll.go, splitAll.go]
    split
    . rw [ih, List.cons_append]
    . exact ih (c :: piece)

theorem splitAll_append {separator : Char} (before after : List Char) :
    splitAll separator (before ++ separator :: after) = splitAll separator before ++ splitAll separator after :=
  splitAll_go_append [] before after

theorem splitAll_go_of_not_mem {separator : Char} {cs : List Char} (h : separator ∉ cs) (piece : List Char) :
    splitAll.go separator piece cs = [piece.reverse ++ cs] := by
  induction cs generalizing piece with
  | nil => rw [splitAll.go, List.append_nil]
  | cons c cs ih =>
    simp only [List.mem_cons, not_or] at h
    rw [splitAll.go, if_neg (Ne.symm h.1), ih h.2, List.reverse_cons, List.append_assoc, List.singleton_append]

theorem splitAll_of_not_mem {separator : Char} {cs : List Char} (h : separator ∉ cs) : splitAll separator cs = [cs] :=
  splitAll_go_of_not_mem h []

theorem length_le_of_mem_splitAll_go {separator : Char} {cs piece part : List Char}
    (h : part ∈ splitAll.go separator piece cs) : part.length ≤ piece.length + cs.length := by
  induction cs generalizing piece with
  | nil =>
    rw [splitAll.go, List.mem_singleton] at h
    rw [h, List.length_reverse]
    exact Nat.le_add_right ..
  | cons c cs ih =>
    rw [splitAll.go] at h
    split at h
    . rcases List.mem_cons.1 h with rfl | h
      . rw [List.length_reverse]
        omega
      . have := ih h
        simp only [List.length_nil, List.length_cons] at this ⊢
        omega
    . have := ih h
      simp only [List.length_cons] at this ⊢
      omega

theorem splitAll_go_ne_nil {separator : Char} (piece cs : List Char) : splitAll.go separator piece cs ≠ [] := by
  induction cs generalizing piece with
  | nil => simp [splitAll.go]
  | cons c cs ih =>
    rw [splitAll.go]
    split
    . simp
    . exact ih _

end Mustache.Text
