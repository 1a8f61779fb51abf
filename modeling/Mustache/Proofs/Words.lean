import Mustache.Proofs.Search
import Mustache.Source.Words

/-!
This module contains the words of a tag as texts of their own: what a word is made of, and that words which are
written with one blank between them are split into the same words again.
-/

namespace Mustache

namespace Text

theorem trimStart_eq_self {cs : List Char} (h : ∀ c ∈ cs.head?, isBlank c = false) : trimStart cs = cs := by
  cases cs with
  | nil => rfl
  | cons c cs =>
    have := h c rfl
    simp [trimStart, this]

theorem trimEnd_eq_self {cs : List Char} (h : ∀ c ∈ cs.getLast?, isBlank c = false) : trimEnd cs = cs := by
  have : trimStart cs.reverse = cs.reverse := by
    apply trimStart_eq_self
    rw [List.head?_reverse]
    exact h
  unfold trimStart at this
  rw [trimEnd, this, List.reverse_reverse]

theorem trim_eq_self {cs : List Char} (hhead : ∀ c ∈ cs.head?, isBlank c = false)
    (hlast : ∀ c ∈ cs.getLast?, isBlank c = false) : trim cs = cs := by
  rw [trim, trimStart_eq_self hhead, trimEnd_eq_self hlast]

theorem trimEnd_cons {c : Char} (hc : isBlank c = false) (cs : List Char) :
    trimEnd (c :: cs) = c :: trimEnd cs := by
  unfold trimEnd
  rw [List.reverse_cons, List.dropWhile_append]
  split
  next h => simp_all
  . rw [List.reverse_append, List.reverse_singleton, List.singleton_append]

theorem trim_cons {c : Char} (hc : isBlank c = false) (cs : List Char) : trim (c :: cs) = c :: trimEnd cs := by
  rw [trim, trimStart_eq_self (by simpa using hc), trimEnd_cons hc]

theorem trimStart_head (cs : List Char) : ∀ c ∈ (trimStart cs).head?, isBlank c = false := by
  intro c hc
  have := List.head?_dropWhile_not isBlank cs
  rw [trimStart] at hc
  rw [hc] at this
  simpa using this

theorem trimEnd_prefix (cs : List Char) : trimEnd cs <+: cs := by
  have := List.dropWhile_suffix isBlank (l := cs.reverse)
  rwa [← List.reverse_prefix, List.reverse_reverse] at this

theorem trimEnd_append {cs blanks : List Char} (h : ∀ c ∈ blanks, isBlank c) : trimEnd (cs ++ blanks) = trimEnd cs := by
  rw [trimEnd, List.reverse_append, List.dropWhile_append_of_pos (by simpa using h), trimEnd]

theorem trim_append {cs blanks : List Char} (h : ∀ c ∈ blanks, isBlank c) : trim (cs ++ blanks) = trim cs := by
  unfold trim trimStart
  rw [List.dropWhile_append]
  split
  next hnil =>
    rw [List.isEmpty_iff.1 hnil, ← List.append_nil blanks, List.dropWhile_append_of_pos h, List.dropWhile_nil]
  . rw [trimEnd_append h]

theorem exists_trimEnd_append (cs : List Char) : ∃ blanks, cs = trimEnd cs ++ blanks ∧ ∀ c ∈ blanks, isBlank c := by
  refine ⟨(cs.reverse.takeWhile isBlank).reverse, ?_, ?_⟩
  . rw [trimEnd, ← List.reverse_append, List.takeWhile_append_dropWhile, List.reverse_reverse]
  . intro c hc
    exact List.all_eq_true.1 List.all_takeWhile c (List.mem_reverse.1 hc)

theorem trim_trimEnd (cs : List Char) : trim (trimEnd cs) = trim cs := by
  obtain ⟨blanks, hcs, hblanks⟩ := exists_trimEnd_append cs
  conv => rhs; rw [hcs, trim_append hblanks]

theorem trim_head (cs : List Char) : ∀ c ∈ (trim cs).head?, isBlank c = false := by
  intro c hc
  apply trimStart_head cs
  obtain ⟨rest, hrest⟩ := trimEnd_prefix (trimStart cs)
  obtain ⟨tail, htail⟩ := List.head?_eq_some_iff.1 hc
  rw [trim] at htail
  rw [← hrest, htail]
  simp

theorem trim_infix (cs : List Char) : trim cs <:+: cs := by
  obtain ⟨behind, hbehind⟩ := trimEnd_prefix (trimStart cs)
  obtain ⟨before, hbefore⟩ := List.dropWhile_suffix isBlank (l := cs)
  refine ⟨before, behind, ?_⟩
  rw [trim, List.append_assoc, hbehind]
  exact hbefore

theorem trim_last (cs : List Char) : ∀ c ∈ (trim cs).getLast?, isBlank c = false := by
  intro c hc
  rw [trim, trimEnd, List.getLast?_reverse] at hc
  exact trimStart_head _ c hc

theorem mem_finish {word w : List Char} (h : w ∈ words.finish word) : w = word.reverse ∧ w ≠ [] := by
  unfold words.finish at h
  split at h
  . simp at h
  next hne =>
    simp only [List.mem_singleton] at h
    subst h
    simpa using hne

@[simp] theorem finish_reverse {word : List Char} (h : word ≠ []) : words.finish word.reverse = [word] := by
  simp [words.finish, h]

theorem words_go_of_solid (word cs : List Char) (h : ∀ c ∈ cs, isBlank c = false) :
    words.go word cs = words.finish (cs.reverse ++ word) := by
  induction cs generalizing word with
  | nil => simp [words.go]
  | cons c cs ih =>
    have hc := h c (by simp)
    rw [words.go, hc, if_neg (by simp), ih]
    . simp
    . intro x hx
      exact h x (by simp [hx])

theorem words_eq_singleton {cs : List Char} (hne : cs ≠ []) (h : ∀ c ∈ cs, isBlank c = false) :
    words cs = [cs] := by
  rw [words, words_go_of_solid _ _ h, List.append_nil, finish_reverse hne]

theorem words_go_append (word cs : List Char) (h : ∀ c ∈ cs, isBlank c = false) {blank : Char} (hblank : isBlank blank)
    (more : List Char) :
    words.go word (cs ++ blank :: more) = words.finish (cs.reverse ++ word) ++ words more := by
  induction cs generalizing word with
  | nil => simp [words.go, hblank, words]
  | cons c cs ih =>
    rw [List.forall_mem_cons] at h
    rw [List.cons_append, words.go, h.1, if_neg (by simp), ih _ h.2]
    simp

theorem words_append {cs : List Char} (hne : cs ≠ []) (h : ∀ c ∈ cs, isBlank c = false) {blank : Char}
    (hblank : isBlank blank) (more : List Char) : words (cs ++ blank :: more) = cs :: words more := by
  rw [words, words_go_append _ _ h hblank, List.append_nil, finish_reverse hne]
  rfl

theorem mem_words_go {word cs w : List Char} (hword : ∀ c ∈ word, isBlank c = false)
    (h : w ∈ words.go word cs) : w ≠ [] ∧ ∀ c ∈ w, isBlank c = false := by
  induction cs generalizing word with
  | nil =>
    obtain ⟨rfl, hne⟩ := mem_finish h
    exact ⟨hne, by simpa using hword⟩
  | cons c cs ih =>
    rw [words.go] at h
    split at h
    . rcases List.mem_append.1 h with h | h
      . obtain ⟨rfl, hne⟩ := mem_finish h
        exact ⟨hne, by simpa using hword⟩
      . exact ih (by simp) h
    next hc =>
      apply ih _ h
      simpa [hc] using hword

theorem mem_words {cs w : List Char} (h : w ∈ words cs) : w ≠ [] ∧ ∀ c ∈ w, isBlank c = false :=
  mem_words_go (by simp) h

end Text

namespace Source

theorem isQuote_not_blank {c : Char} (h : isQuote c) : Text.isBlank c = false := by
  simp only [isQuote, Bool.or_eq_true, beq_iff_eq] at h
  rcases h with rfl | rfl <;> decide

/--
The quote that is open behind a text, which itself begins inside of a string opened by `quote` or outside of
strings. There is none if a blank outside of strings ends the word before.
-/
def quoteAfter (quote : Option Char) : List Char → Option (Option Char)
  | [] => some quote
  | c :: cs =>
    match quote with
    | some q => quoteAfter (if c = q then none else some q) cs
    | none => if Text.isBlank c then none else quoteAfter (if isQuote c then some c else none) cs

/--
A text that a tag keeps together: its strings are closed and its blanks are inside of them.
-/
def IsWhole (cs : List Char) : Prop :=
  quoteAfter none cs = some none

instance (cs : List Char) : Decidable (IsWhole cs) :=
  inferInstanceAs (Decidable (_ = _))

theorem quoteAfter_append (quote : Option Char) (cs ds : List Char) :
    quoteAfter quote (cs ++ ds) = (quoteAfter quote cs).bind (quoteAfter · ds) := by
  induction cs generalizing quote with
  | nil => rfl
  | cons c cs ih =>
    cases quote with
    | some q => simp only [List.cons_append, quoteAfter, ih]
    | none =>
      simp only [List.cons_append, quoteAfter]
      split
      . rfl
      . rw [ih]

theorem IsWhole.append {cs ds : List Char} (hcs : IsWhole cs) (hds : IsWhole ds) : IsWhole (cs ++ ds) := by
  unfold IsWhole at *
  rw [quoteAfter_append, hcs, Option.bind_some, hds]

theorem IsWhole.of_append {cs ds : List Char} (hcs : IsWhole cs) (h : IsWhole (cs ++ ds)) : IsWhole ds := by
  unfold IsWhole at *
  rwa [quoteAfter_append, hcs, Option.bind_some] at h

theorem isWhole_of_plain {cs : List Char} (h : ∀ c ∈ cs, Text.isBlank c = false ∧ isQuote c = false) :
    IsWhole cs := by
  induction cs with
  | nil => rfl
  | cons c cs ih =>
    have hc := h c (by simp)
    unfold IsWhole
    simp only [quoteAfter, hc, Bool.false_eq_true, ↓reduceIte]
    apply ih
    intro x hx
    exact h x (by simp [hx])

theorem quoteAfter_string {q : Char} {cs : List Char} (h : q ∉ cs) :
    quoteAfter (some q) (cs ++ [q]) = some none := by
  induction cs with
  | nil => simp [quoteAfter]
  | cons c cs ih =>
    simp only [List.mem_cons, not_or] at h
    simp only [List.cons_append, quoteAfter]
    rw [if_neg (Ne.symm h.1)]
    exact ih h.2

theorem isWhole_quoted {cs : List Char} (h : '\x22' ∉ cs) : IsWhole ('\x22' :: cs ++ ['\x22']) := by
  have hb : Text.isBlank '\x22' = false := by decide
  have hq : isQuote '\x22' = true := by decide
  unfold IsWhole
  simp only [List.cons_append, quoteAfter, hb, hq, Bool.false_eq_true, ↓reduceIte]
  exact quoteAfter_string h

theorem IsWhole.head_not_blank {cs : List Char} (h : IsWhole cs) : ∀ c ∈ cs.head?, Text.isBlank c = false := by
  intro c hc
  cases cs with
  | nil => simp at hc
  | cons d cs =>
    simp only [List.head?_cons, Option.mem_def, Option.some.injEq] at hc
    subst hc
    unfold IsWhole at h
    simp only [quoteAfter] at h
    split at h
    . simp at h
    next hb => simpa using hb

theorem quoteAfter_isQuote {quote r : Option Char} {cs : List Char} (hquote : ∀ q ∈ quote, isQuote q)
    (h : quoteAfter quote cs = some r) : ∀ q ∈ r, isQuote q := by
  induction cs generalizing quote with
  | nil =>
    simp only [quoteAfter, Option.some.injEq] at h
    rwa [← h]
  | cons c cs ih =>
    cases quote with
    | some q =>
      simp only [quoteAfter] at h
      apply ih _ h
      split
      . simp
      . exact hquote
    | none =>
      simp only [quoteAfter] at h
      split at h
      . simp at h
      . apply ih _ h
        split
        next hc => simpa using hc
        . simp

theorem IsWhole.last_not_blank {cs : List Char} (h : IsWhole cs) : ∀ c ∈ cs.getLast?, Text.isBlank c = false := by
  intro c hc
  obtain ⟨init, rfl⟩ := List.getLast?_eq_some_iff.1 hc
  unfold IsWhole at h
  rw [quoteAfter_append] at h
  obtain ⟨quote, hinit, h⟩ := Option.bind_eq_some_iff.1 h
  cases quote with
  | none =>
    simp only [quoteAfter] at h
    split at h
    . simp at h
    next hb => simpa using hb
  | some q =>
    -- the last character closes the string that is open, so it is a quote itself
    simp only [quoteAfter] at h
    split at h
    next hq =>
      apply isQuote_not_blank
      rw [hq]
      exact quoteAfter_isQuote (by simp) hinit q rfl
    . simp at h

theorem splitWords_go_append {quote r : Option Char} {cs : List Char} (h : quoteAfter quote cs = some r)
    (word rest : List Char) :
    splitWords.go quote word (cs ++ rest) = splitWords.go r (cs.reverse ++ word) rest := by
  induction cs generalizing quote word with
  | nil =>
    simp only [quoteAfter, Option.some.injEq] at h
    simp [h]
  | cons c cs ih =>
    cases quote with
    | some q =>
      simp only [quoteAfter] at h
      simp [splitWords.go, ih h]
    | none =>
      simp only [quoteAfter] at h
      split at h
      . simp at h
      next hb => simp [splitWords.go, hb, ih h]

theorem mem_splitWords_go {quote : Option Char} {word cs : List Char} {ws : List (List Char)}
    (hword : quoteAfter none word.reverse = some quote) (h : splitWords.go quote word cs = some ws) :
    ∀ w ∈ ws, w ≠ [] ∧ IsWhole w := by
  induction cs generalizing quote word ws with
  | nil =>
    simp only [splitWords.go] at h
    split at h
    . simp at h
    next hquote =>
      simp only [Option.some.injEq] at h
      subst h
      intro w hw
      obtain ⟨rfl, hne⟩ := Text.mem_finish hw
      refine ⟨hne, ?_⟩
      have : quote = none := by simpa using hquote
      rwa [this] at hword
  | cons c cs ih =>
    have hstep : quoteAfter none (c :: word).reverse = quoteAfter quote [c] := by
      rw [List.reverse_cons, quoteAfter_append, hword, Option.bind_some]
    cases quote with
    | some q =>
      simp only [splitWords.go] at h
      exact ih hstep h
    | none =>
      simp only [splitWords.go] at h
      split at h
      . obtain ⟨rest, hrest, rfl⟩ := Option.map_eq_some_iff.1 h
        intro w hw
        rcases List.mem_append.1 hw with hw | hw
        . obtain ⟨rfl, hne⟩ := Text.mem_finish hw
          exact ⟨hne, hword⟩
        . exact ih rfl hrest w hw
      next hb =>
        apply ih _ h
        rw [hstep, quoteAfter, if_neg hb, quoteAfter]

theorem mem_splitWords {cs w : List Char} {ws : List (List Char)} (h : splitWords cs = some ws) (hw : w ∈ ws) :
    w ≠ [] ∧ IsWhole w :=
  mem_splitWords_go rfl h w hw

theorem finish_of_ne {word : List Char} (h : word ≠ []) : Text.words.finish word = [word.reverse] := by
  rw [Text.words.finish, if_neg (by simpa using h)]

theorem splitWords_blank {c : Char} (hc : Text.isBlank c) (cs : List Char) : splitWords (c :: cs) = splitWords cs := by
  have hnil : Text.words.finish [] = [] := rfl
  simp [splitWords, splitWords.go, hc, hnil]

theorem splitWords_append {word rest : List Char} {words : List (List Char)} (hword : word ≠ [] ∧ IsWhole word)
    (hrest : ∀ c ∈ rest.head?, Text.isBlank c) (h : splitWords rest = some words) :
    splitWords (word ++ rest) = some (word :: words) := by
  rw [splitWords, splitWords_go_append hword.2]
  cases rest with
  | nil =>
    obtain rfl : [] = words := Option.some.inj h
    simp [splitWords.go, hword.1]
  | cons c rest =>
    have hc := hrest c rfl
    rw [splitWords_blank hc, splitWords] at h
    simp [splitWords.go, hc, h, hword.1]

/--
Words of their own that are written with a blank between them are split into the same words.
-/
theorem splitWords_join {word : List Char} {words : List (List Char)} (hword : word ≠ [] ∧ IsWhole word)
    (hwords : ∀ w ∈ words, w ≠ [] ∧ IsWhole w) :
    splitWords (word ++ words.flatMap (' ' :: ·)) = some (word :: words) := by
  have hb : Text.isBlank ' ' = true := by decide
  induction words generalizing word with
  | nil => exact splitWords_append hword (by simp) rfl
  | cons next words ih =>
    have hnext := ih (hwords next (by simp)) (fun w hw => hwords w (by simp [hw]))
    rw [List.flatMap_cons, List.cons_append]
    refine splitWords_append hword (by simpa using hb) ?_
    rw [splitWords_blank hb, hnext]

theorem splitWords_go_begun {quote : Option Char} {word cs : List Char} {ws : List (List Char)} (hword : word ≠ [])
    (h : splitWords.go quote word cs = some ws) :
    ∃ more rest others, ws = (word.reverse ++ more) :: others ∧ cs = more ++ rest ∧ splitWords rest = some others ∧
      ∀ c ∈ rest.head?, Text.isBlank c := by
  induction cs generalizing quote word with
  | nil =>
    simp only [splitWords.go] at h
    split at h
    . cases h
    . rw [finish_of_ne hword] at h
      cases h
      exact ⟨[], [], [], by simp, rfl, rfl, by simp⟩
  | cons c cs ih =>
    have hlonger {r : Option Char} (h : splitWords.go r (c :: word) cs = some ws) :
        ∃ more rest others, ws = (word.reverse ++ more) :: others ∧ c :: cs = more ++ rest ∧
          splitWords rest = some others ∧ ∀ c ∈ rest.head?, Text.isBlank c := by
      obtain ⟨more, rest, others, hws, hcs, hrest⟩ := ih (by simp) h
      exact ⟨c :: more, rest, others, by simpa using hws, by rw [hcs, List.cons_append], hrest⟩
    cases quote with
    | some q =>
      simp only [splitWords.go] at h
      exact hlonger h
    | none =>
      simp only [splitWords.go] at h
      split at h
      next hb =>
        obtain ⟨others, hothers, hws⟩ := Option.map_eq_some_iff.1 h
        rw [finish_of_ne hword] at hws
        refine ⟨[], c :: cs, others, by simpa using hws.symm, rfl, ?_, by simpa using hb⟩
        rwa [splitWords_blank hb, splitWords]
      . exact hlonger h

theorem splitWords_eq_cons {cs : List Char} {ws : List (List Char)} (hne : cs ≠ [])
    (hhead : ∀ c ∈ cs.head?, Text.isBlank c = false) (h : splitWords cs = some ws) :
    ∃ w rest others, ws = w :: others ∧ w ≠ [] ∧ cs = w ++ rest ∧ splitWords rest = some others ∧
      ∀ c ∈ rest.head?, Text.isBlank c := by
  obtain ⟨c, cs, rfl⟩ := List.exists_cons_of_ne_nil hne
  have hb := hhead c rfl
  rw [splitWords, splitWords.go] at h
  simp only [hb, Bool.false_eq_true, ↓reduceIte] at h
  obtain ⟨more, rest, others, hws, rfl, hrest⟩ := splitWords_go_begun (by simp) h
  exact ⟨c :: more, rest, others, hws, by simp, rfl, hrest⟩

theorem blank_of_splitWords_eq_nil {cs : List Char} (h : splitWords cs = some []) : ∀ c ∈ cs, Text.isBlank c := by
  induction cs with
  | nil => simp
  | cons c cs ih =>
    by_cases hb : Text.isBlank c
    . rw [splitWords_blank hb] at h
      intro x hx
      rcases List.mem_cons.1 hx with rfl | hx
      . exact hb
      . exact ih h x hx
    . obtain ⟨w, rest, others, hws, -⟩ := splitWords_eq_cons (by simp) (by simpa using hb) h
      cases hws

theorem splitWords_singleton {cs w : List Char} (hhead : ∀ c ∈ cs.head?, Text.isBlank c = false)
    (hlast : ∀ c ∈ cs.getLast?, Text.isBlank c = false) (h : splitWords cs = some [w]) : w = cs := by
  have hne : cs ≠ [] := by
    rintro rfl
    cases h
  obtain ⟨first, rest, others, hws, -, rfl, hrest, -⟩ := splitWords_eq_cons hne hhead h
  cases hws
  have hblank := blank_of_splitWords_eq_nil hrest
  cases hend : rest.getLast? with
  | none => rw [List.getLast?_eq_none_iff.1 hend, List.append_nil]
  | some c =>
    -- the last character is a blank of the rest, but the tag ends with none
    have hc := hlast c (by rw [List.getLast?_append, hend]; rfl)
    rw [hblank c (List.mem_of_getLast? hend)] at hc
    cases hc

end Source

end Mustache
