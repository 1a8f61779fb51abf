import Mustache.Proofs.Patterns

/-!
This module contains texts that are quoted in date patterns. The main statement is that a text between quotes is written
as it is, whatever quotes it begins and ends with, and that the patterns around it keep their meaning.
-/

namespace Mustache

namespace DateFormat

/--
What a date format holds for a text: the text with each of its percent signs doubled.
-/
def spelled (text : List Char) : List Char :=
  text.flatMap fun c => if c = '%' then ['%', '%'] else [c]

theorem code_literals (text : List Char) : (text.map DateItem.literal).flatMap DateItem.code = spelled text := by
  rw [spelled, List.flatMap_map]
  rfl

theorem join_literals (shown : DateField → String) (text : List Char) :
    String.join ((text.map DateItem.literal).map (DateItem.text shown)) = String.ofList text := by
  induction text with
  | nil => rfl
  | cons c text ih =>
    rw [List.map_cons, List.map_cons, String.join_cons, ih]
    simp [DateItem.text]

end DateFormat

namespace DatePattern

def enclosed (text : List Char) : List Char :=
  '\x27' :: (doubled text ++ ['\x27'])

section Quotes

variable {text rest : List Char}

theorem enclosed_cons_quote (text rest : List Char) :
    enclosed ('\x27' :: text) ++ rest = '\x27' :: '\x27' :: (enclosed text ++ rest) := rfl

theorem enclosed_append (text rest : List Char) :
    enclosed text ++ rest = '\x27' :: (doubled text ++ '\x27' :: rest) := by
  rw [enclosed, List.cons_append, List.append_assoc, List.singleton_append]

theorem readQuotes_enclosed (hplain : ∃ c ∈ text, c ≠ '\x27') (hrest : rest.head? ≠ some '\x27') :
    readQuotes false (enclosed text ++ rest) =
      (text.map .literal ++ (readQuotes false rest).1, (readQuotes false rest).2) := by
  induction text with
  | nil =>
    obtain ⟨c, hc, -⟩ := hplain
    cases hc
  | cons c text ih =>
    by_cases hc : c = '\x27'
    . subst hc
      -- the opening quote and the first one of the doubled quote are a pair, the second one opens what is left
      have hplain : ∃ c ∈ text, c ≠ '\x27' := by simpa using hplain
      rw [enclosed_cons_quote, readQuotes_pair, ih hplain]
      rfl
    . rw [enclosed_append, readQuotes_single false (head_doubled hc text _), Bool.not_false,
        readQuotes_doubled _ hrest]

theorem readQuotes_enclosed_quotes (h : ∀ c ∈ text, c = '\x27') :
    readQuotes false (enclosed text) = ((text ++ ['\x27']).map .literal, true) := by
  induction text with
  | nil => rfl
  | cons c text ih =>
    rw [List.forall_mem_cons] at h
    have hpair := enclosed_cons_quote text []
    rw [List.append_nil, List.append_nil] at hpair
    rw [h.1, hpair, readQuotes_pair, ih h.2]
    rfl

theorem readQuotes_append (quoted : Bool) {cs : List Char} (hlast : cs.getLast? ≠ some '\x27') (rest : List Char) :
    readQuotes quoted (cs ++ rest) =
      ((readQuotes quoted cs).1 ++ (readQuotes (!(readQuotes quoted cs).2) rest).1,
        (readQuotes (!(readQuotes quoted cs).2) rest).2) := by
  induction quoted, cs using quotes_induction with
  | nil quoted => simp [readQuotes]
  | pair quoted cs ih =>
    cases cs with
    | nil => simp at hlast
    | cons c cs =>
      rw [List.getLast?_cons_cons, List.getLast?_cons_cons] at hlast
      rw [List.cons_append, List.cons_append, readQuotes_pair, readQuotes_pair, ih hlast]
      rfl
  | single quoted cs hcs ih =>
    cases cs with
    | nil => simp at hlast
    | cons c cs =>
      rw [List.getLast?_cons_cons] at hlast
      rw [readQuotes_single quoted hcs, List.cons_append, readQuotes_single quoted (by simpa using hcs)]
      exact ih hlast
  | char quoted c cs hc ih =>
    have htail : cs.getLast? ≠ some '\x27' := by
      cases cs with
      | nil => simp
      | cons d cs => rwa [List.getLast?_cons_cons] at hlast
    rw [List.cons_append, readQuotes_char quoted hc, readQuotes_char quoted hc, ih htail]
    rfl

end Quotes

section Parts

theorem runs_append_literal (chars : List PatternChar) (c : Char) (rest : List PatternChar) :
    runs (chars ++ .literal c :: rest) = runs chars ++ .literal c :: runs rest := by
  induction chars with
  | nil => rfl
  | cons first chars ih =>
    cases first with
    | literal d => exact congrArg (PatternPart.literal d :: ·) ih
    | letter d =>
      rw [List.cons_append, runs, ih, runs]
      cases runs chars with
      | nil => rfl
      | cons part parts =>
        cases part with
        | literal => rfl
        | run e count =>
          dsimp only [List.cons_append]
          split <;> rfl

theorem runs_around {text : List Char} (hne : text ≠ []) (before after : List PatternChar) :
    runs (before ++ (text.map .literal ++ after)) = runs before ++ (text.map .literal ++ runs after) := by
  cases text with
  | nil => exact absurd rfl hne
  | cons c text =>
    rw [List.map_cons, List.cons_append, runs_append_literal, runs_literals]
    rfl

theorem mapM_item_around {before after : List PatternPart} {items others : List DateItem}
    (hbefore : before.mapM item = .ok items) (hafter : after.mapM item = .ok others) (text : List Char) :
    (before ++ (text.map PatternPart.literal ++ after)).mapM item =
      .ok (items ++ (text.map DateItem.literal ++ others)) := by
  rw [List.mapM_append, hbefore, mapM_item_literals, hafter]
  rfl

end Parts

theorem toFormat_of_reads {pattern : List Char} {items : List DateItem} (hclosed : (readQuotes false pattern).2 = true)
    (hitems : (runs (readQuotes false pattern).1).mapM item = .ok items) :
    toFormat (String.ofList pattern) = .ok (String.ofList (items.flatMap DateItem.code)) := by
  unfold toFormat
  dsimp only
  rw [String.toList_ofList, hitems, hclosed]
  rfl

theorem toFormat_around {before text after : List Char} {items others : List DateItem}
    (hplain : ∃ c ∈ text, c ≠ '\x27') (hbefore : (readQuotes false before).2 = true)
    (hitems : (runs (readQuotes false before).1).mapM item = .ok items) (hafter : (readQuotes false after).2 = true)
    (hothers : (runs (readQuotes false after).1).mapM item = .ok others) (hlast : before.getLast? ≠ some '\x27')
    (hfirst : after.head? ≠ some '\x27') :
    toFormat (String.ofList (before ++ (enclosed text ++ after))) =
      .ok (String.ofList ((items ++ (text.map DateItem.literal ++ others)).flatMap DateItem.code)) := by
  have hread := readQuotes_append false hlast (enclosed text ++ after)
  rw [hbefore, Bool.not_true, readQuotes_enclosed hplain hfirst] at hread
  have hne : text ≠ [] := by
    obtain ⟨c, hc, -⟩ := hplain
    exact List.ne_nil_of_mem hc
  apply toFormat_of_reads
  . rw [hread]
    exact hafter
  . rw [hread, runs_around hne]
    exact mapM_item_around hitems hothers text

theorem toFormat_literals {pattern text : List Char} (h : readQuotes false pattern = (text.map .literal, true)) :
    toFormat (String.ofList pattern) = .ok (String.ofList (DateFormat.spelled text)) := by
  have hruns := runs_literals text []
  have hitems := mapM_item_literals text []
  rw [List.append_nil] at hruns hitems
  rw [← DateFormat.code_literals]
  apply toFormat_of_reads
  . rw [h]
  . rw [h]
    dsimp only
    rw [hruns, runs, List.append_nil, hitems]
    exact congrArg Except.ok (List.append_nil _)

theorem spelled_concat_ne (text : List Char) (c : Char) :
    DateFormat.spelled (text ++ [c]) ≠ DateFormat.spelled text := by
  intro heq
  have hcode : (if c = '%' then ['%', '%'] else [c]) = [] := by
    simpa [DateFormat.spelled] using heq
  split at hcode <;> cases hcode

/--
A text between quotes has the format that is written as the text, unless there is nothing but quotes in it. Between two
patterns, of which the first does not end with a quote and the second does not begin with one, it is written as the text
between what the two of them are written as.
-/
theorem toFormat_enclosed :
    (∀ text : List Char,
      toFormat (String.ofList (enclosed text)) = .ok (String.ofList (DateFormat.spelled text)) ↔
        ∃ c ∈ text, c ≠ '\x27') ∧
    (∀ (calendar : Calendar) shown, calendar.Reads shown → ∀ locale t text,
      calendar.write locale (String.ofList (DateFormat.spelled text)) t = .ok (String.ofList text)) ∧
    ∀ text : List Char, (∃ c ∈ text, c ≠ '\x27') → ∀ before after format next, toFormat before = .ok format →
      toFormat after = .ok next → before.toList.getLast? ≠ some '\x27' → after.toList.head? ≠ some '\x27' →
      let between := format ++ String.ofList (DateFormat.spelled text) ++ next
      toFormat (before ++ String.ofList (enclosed text) ++ after) = .ok between ∧
        ∀ (calendar : Calendar) shown, calendar.Reads shown → ∀ locale t, ∃ first last,
          calendar.write locale format t = .ok first ∧ calendar.write locale next t = .ok last ∧
            calendar.write locale between t = .ok (first ++ String.ofList text ++ last) := by
  refine ⟨fun text => ?_, fun calendar shown hreads locale t text => ?_, ?_⟩
  . constructor
    . intro h
      by_contra hquotes
      simp only [not_exists, not_and, not_not] at hquotes
      rw [toFormat_literals (readQuotes_enclosed_quotes hquotes)] at h
      exact spelled_concat_ne text _ (String.ofList_injective (Except.ok.inj h))
    . intro hplain
      have hread := readQuotes_enclosed hplain (show [].head? ≠ some '\x27' by simp)
      simp only [readQuotes, List.append_nil] at hread
      exact toFormat_literals hread
  . rw [← DateFormat.code_literals, hreads.write_code, DateFormat.join_literals]
  . intro text hplain before after format next hformat hnext hlast hfirst between
    obtain ⟨items, hbefore, hitems, rfl⟩ := toFormat_eq_ok hformat
    obtain ⟨others, hafter, hothers, rfl⟩ := toFormat_eq_ok hnext
    have hbetween : between =
        String.ofList ((items ++ (text.map DateItem.literal ++ others)).flatMap DateItem.code) := by
      simp [between, ← DateFormat.code_literals, String.append_assoc]
    have haround := toFormat_around hplain hbefore hitems hafter hothers hlast hfirst
    refine ⟨?_, fun calendar shown hreads locale t => ?_⟩
    . rw [hbetween, ← haround]
      simp [String.append_assoc]
    . refine ⟨_, _, hreads.write_code .., hreads.write_code .., ?_⟩
      rw [hbetween, hreads.write_code, List.map_append, List.map_append, String.join_append, String.join_append,
        DateFormat.join_literals, String.append_assoc]

theorem toFormat_enclosed_runs :
    let text := "\x27\x27y 100% o\x27y\x27".toList
    let between := "%Y" ++ String.ofList (DateFormat.spelled text) ++ "%m"
    (∃ c ∈ text, c ≠ '\x27') ∧ toFormat "yyyy" = .ok "%Y" ∧ toFormat "MM" = .ok "%m" ∧
      "yyyy".toList.getLast? ≠ some '\x27' ∧ "MM".toList.head? ≠ some '\x27' ∧
      toFormat (String.ofList (enclosed text)) = .ok (String.ofList (DateFormat.spelled text)) ∧
      toFormat ("yyyy" ++ String.ofList (enclosed text) ++ "MM") = .ok between ∧
      between = "%Y\x27\x27y 100%% o\x27y\x27%m" ∧ Calendar.gregorian.Reads Calendar.gregorianText ∧
      Calendar.gregorian.write "en_US" (String.ofList (DateFormat.spelled text))
        { year := 2012, month := 6, day := 19 } = .ok (String.ofList text) := by
  intro text between
  have hplain : ∃ c ∈ text, c ≠ '\x27' := ⟨'y', by decide, by decide⟩
  obtain ⟨htext, hwrite, haround⟩ := toFormat_enclosed
  have hyear : toFormat "yyyy" = .ok "%Y" := by rfl
  have hmonth : toFormat "MM" = .ok "%m" := by rfl
  have hlast : "yyyy".toList.getLast? ≠ some '\x27' := by decide
  have hfirst : "MM".toList.head? ≠ some '\x27' := by decide
  exact ⟨hplain, hyear, hmonth, hlast, hfirst, (htext text).2 hplain,
    (haround text hplain "yyyy" "MM" _ _ hyear hmonth hlast hfirst).1, by decide, Calendar.gregorian_reads,
    hwrite _ _ Calendar.gregorian_reads _ _ _⟩

end DatePattern

end Mustache
