import Mustache.Proofs.Words

/-!
This module contains the splitting of a tag as a whole. The main statement is that it fails iff a string is left open,
that it loses nothing but the blanks outside of strings, and that the words are the same with any blanks between them.
-/

namespace Mustache.Source

def quoteStep (quote : Option Char) (c : Char) : Option Char :=
  match quote with
  | some q => if c = q then none else some q
  | none => if isQuote c then some c else none

def openQuote (cs : List Char) : Option Char :=
  cs.foldl quoteStep none

/--
What is left of a text without its blanks outside of strings, if `quote` is open before it.
-/
def solid (quote : Option Char) : List Char → List Char
  | [] => []
  | c :: cs =>
    let rest := solid (quoteStep quote c) cs
    if quote.isNone && Text.isBlank c then rest else c :: rest

/--
The blanks of a text are inside of strings, if `quote` is open before it.
-/
def BlanksInside (quote : Option Char) (cs : List Char) : Prop :=
  ∀ before c after, cs = before ++ c :: after → Text.isBlank c → (before.foldl quoteStep quote).isSome

structure IsWord (cs : List Char) : Prop where
  ne_nil : cs ≠ []
  head_not_blank : ∀ c ∈ cs.head?, Text.isBlank c = false
  closed : openQuote cs = none
  blanksInside : BlanksInside none cs

/--
Words in a text, with any blanks before the first and behind the last, and with at least one between two of them.
-/
inductive Spaced : List (List Char) → List Char → Prop where
  | nil {gap : List Char} (hgap : ∀ c ∈ gap, Text.isBlank c) : Spaced [] gap
  | cons {before word gap rest : List Char} {words : List (List Char)} (hbefore : ∀ c ∈ before, Text.isBlank c)
    (hgap : ∀ c ∈ gap, Text.isBlank c) (hapart : words ≠ [] → gap ≠ []) (hrest : Spaced words rest) :
    Spaced (word :: words) (before ++ word ++ gap ++ rest)

variable {quote : Option Char} {cs : List Char} {words : List (List Char)}

theorem quoteStep_blank {c : Char} (hc : Text.isBlank c) : quoteStep none c = none := by
  have hquote : ¬isQuote c := by
    intro hquote
    rw [isQuote_not_blank hquote] at hc
    cases hc
  rw [quoteStep, if_neg hquote]

theorem blanksInside_nil (quote : Option Char) : BlanksInside quote [] := by
  intro before c after heq
  simp at heq

theorem blanksInside_cons_iff {c : Char} :
    BlanksInside quote (c :: cs) ↔ (Text.isBlank c → quote.isSome) ∧ BlanksInside (quoteStep quote c) cs := by
  constructor
  . intro h
    refine ⟨h [] c cs rfl, ?_⟩
    intro before d after heq
    exact h (c :: before) d after (by rw [heq, List.cons_append])
  . rintro ⟨hc, h⟩ before d after heq hd
    cases before with
    | nil =>
      cases heq
      exact hc hd
    | cons e before =>
      cases heq
      exact h before d after rfl hd

theorem quoteAfter_eq_some_iff {r : Option Char} :
    quoteAfter quote cs = some r ↔ cs.foldl quoteStep quote = r ∧ BlanksInside quote cs := by
  induction cs generalizing quote with
  | nil => simp [quoteAfter, blanksInside_nil]
  | cons c cs ih =>
    rw [List.foldl_cons, blanksInside_cons_iff]
    cases quote with
    | some q => simp [quoteAfter, quoteStep, ih]
    | none =>
      by_cases hc : Text.isBlank c
      . simp [quoteAfter, hc]
      . simp [quoteAfter, quoteStep, hc, ih]

theorem isWord_iff : IsWord cs ↔ cs ≠ [] ∧ IsWhole cs := by
  constructor
  . rintro ⟨hne, -, hclosed, hinside⟩
    exact ⟨hne, quoteAfter_eq_some_iff.2 ⟨hclosed, hinside⟩⟩
  . rintro ⟨hne, hwhole⟩
    obtain ⟨hclosed, hinside⟩ := quoteAfter_eq_some_iff.1 hwhole
    exact ⟨hne, hwhole.head_not_blank, hclosed, hinside⟩

theorem splitWords_go_eq_none_iff {word : List Char} :
    splitWords.go quote word cs = none ↔ (cs.foldl quoteStep quote).isSome := by
  induction cs generalizing quote word with
  | nil => simp [splitWords.go, Option.isSome_iff_ne_none]
  | cons c cs ih =>
    rw [List.foldl_cons]
    cases quote with
    | some q => exact ih
    | none =>
      simp only [splitWords.go]
      split
      next hb => rw [Option.map_eq_none_iff, ih, quoteStep_blank hb]
      . exact ih

theorem flatten_finish (word : List Char) : (Text.words.finish word).flatten = word.reverse := by
  unfold Text.words.finish
  split <;> simp_all

theorem flatten_splitWords_go {word : List Char} (h : splitWords.go quote word cs = some words) :
    words.flatten = word.reverse ++ solid quote cs := by
  induction cs generalizing quote word words with
  | nil =>
    simp only [splitWords.go] at h
    split at h
    . cases h
    . cases h
      rw [flatten_finish, solid, List.append_nil]
  | cons c cs ih =>
    cases quote with
    | some q =>
      simp only [splitWords.go] at h
      simpa [solid, quoteStep] using ih h
    | none =>
      simp only [splitWords.go] at h
      split at h
      next hb =>
        obtain ⟨others, hothers, rfl⟩ := Option.map_eq_some_iff.1 h
        simp [solid, quoteStep_blank hb, hb, flatten_finish, ih hothers]
      next hb => simpa [solid, quoteStep, hb] using ih h

theorem splitWords_blanks {gap : List Char} (hgap : ∀ c ∈ gap, Text.isBlank c) (cs : List Char) :
    splitWords (gap ++ cs) = splitWords cs := by
  induction gap with
  | nil => rfl
  | cons c gap ih =>
    rw [List.forall_mem_cons] at hgap
    rw [List.cons_append, splitWords_blank hgap.1, ih hgap.2]

theorem exists_gap (cs : List Char) :
    ∃ gap rest, cs = gap ++ rest ∧ (∀ c ∈ gap, Text.isBlank c) ∧ ∀ c ∈ rest.head?, Text.isBlank c = false :=
  ⟨cs.takeWhile Text.isBlank, Text.trimStart cs, List.takeWhile_append_dropWhile.symm,
    fun c hc => List.all_eq_true.1 List.all_takeWhile c hc, Text.trimStart_head cs⟩

theorem Spaced.head_blank {gap rest : List Char} (hgap : ∀ c ∈ gap, Text.isBlank c) (hapart : words ≠ [] → gap ≠ [])
    (hrest : Spaced words rest) : ∀ c ∈ (gap ++ rest).head?, Text.isBlank c := by
  cases gap with
  | cons c gap => simpa using hgap c
  | nil =>
    cases hrest with
    | nil hrest =>
      intro c hc
      exact hrest c (List.mem_of_head? hc)
    | cons => simp at hapart

theorem Spaced.splitWords_eq (h : Spaced words cs) (hwords : ∀ w ∈ words, IsWord w) : splitWords cs = some words := by
  induction h with
  | @nil gap hgap =>
    rw [← List.append_nil gap, splitWords_blanks hgap]
    rfl
  | @cons before word gap rest words hbefore hgap hapart hrest ih =>
    rw [List.forall_mem_cons] at hwords
    rw [List.append_assoc, List.append_assoc, splitWords_blanks hbefore]
    refine splitWords_append (isWord_iff.1 hwords.1) (hrest.head_blank hgap hapart) ?_
    rw [splitWords_blanks hgap, ih hwords.2]

theorem spaced_of_splitWords (h : splitWords cs = some words) : Spaced words cs := by
  induction words generalizing cs with
  | nil => exact .nil (blank_of_splitWords_eq_nil h)
  | cons word words ih =>
    obtain ⟨before, text, rfl, hbefore, hhead⟩ := exists_gap cs
    rw [splitWords_blanks hbefore] at h
    have hne : text ≠ [] := by
      rintro rfl
      cases h
    obtain ⟨_, rest, _, ⟨⟩, -, rfl, hrest, hblank⟩ := splitWords_eq_cons hne hhead h
    obtain ⟨gap, tail, rfl, hgap, htail⟩ := exists_gap rest
    rw [splitWords_blanks hgap] at hrest
    have hapart : words ≠ [] → gap ≠ [] := by
      rintro hwords rfl
      cases tail with
      | nil =>
        cases hrest
        exact hwords rfl
      | cons c tail =>
        -- a word ends before a blank only
        have hc := hblank c rfl
        rw [htail c rfl] at hc
        cases hc
    have hspaced : Spaced (word :: words) (before ++ word ++ gap ++ tail) := .cons hbefore hgap hapart (ih hrest)
    simpa using hspaced

theorem splitWords_eq_some_iff :
    splitWords cs = some words ↔ (∀ w ∈ words, IsWord w) ∧ Spaced words cs := by
  constructor
  . intro h
    exact ⟨fun w hw => isWord_iff.2 (mem_splitWords h hw), spaced_of_splitWords h⟩
  . rintro ⟨hwords, hspaced⟩
    exact hspaced.splitWords_eq hwords

/--
A text has words iff it leaves no string open. They are the only words that it consists of, but for blanks around them,
and nothing but the blanks outside of strings is lost. With other blanks in their place the words stay the same.
-/
theorem splitWords_lossless (cs : List Char) :
    (splitWords cs = none ↔ (openQuote cs).isSome) ∧
      ∀ words, (splitWords cs = some words ↔ (∀ w ∈ words, IsWord w) ∧ Spaced words cs) ∧
        (splitWords cs = some words →
          words.flatten = solid none cs ∧ ∀ other, Spaced words other → splitWords other = some words) := by
  refine ⟨splitWords_go_eq_none_iff, ?_⟩
  intro words
  refine ⟨splitWords_eq_some_iff, ?_⟩
  intro h
  refine ⟨flatten_splitWords_go h, ?_⟩
  intro other hother
  exact splitWords_eq_some_iff.2 ⟨(splitWords_eq_some_iff.1 h).1, hother⟩

theorem splitWords_lossless_quotes :
    splitWords " x\x27a \x22\x27  \x22b c\x22".toList = some ["x\x27a \x22\x27".toList, "\x22b c\x22".toList] ∧
      splitWords "x\x27a \x22\x27\n\x22b c\x22\t".toList = some ["x\x27a \x22\x27".toList, "\x22b c\x22".toList] := by
  have hsplit : splitWords " x\x27a \x22\x27  \x22b c\x22".toList =
      some ["x\x27a \x22\x27".toList, "\x22b c\x22".toList] := by decide
  have hlast : Spaced ["\x22b c\x22".toList] ([] ++ "\x22b c\x22".toList ++ [] ++ ['\t']) :=
    .cons (by simp) (by simp) (by simp) (.nil (by decide))
  have hother : Spaced ["x\x27a \x22\x27".toList, "\x22b c\x22".toList]
      ([] ++ "x\x27a \x22\x27".toList ++ ['\n'] ++ ([] ++ "\x22b c\x22".toList ++ [] ++ ['\t'])) :=
    .cons (by simp) (by decide) (by simp) hlast
  exact ⟨hsplit, (((splitWords_lossless _).2 _).2 hsplit).2 _ hother⟩

end Mustache.Source
