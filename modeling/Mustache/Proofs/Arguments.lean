import Mustache.Proofs.Faithful

/-!
This module contains what is read from the text of a call, or from the part of it that a tag leaves. The main statement
is that the call itself is read only from its whole text, and only if that is faithful.
-/

namespace Mustache

open Source

namespace Source

variable {word : List Char}

theorem eq_nil_of_whole_append {cs more behind : List Char} (hcs : IsWhole cs) (hword : IsWhole (cs ++ more))
    (hbehind : ∀ c ∈ (more ++ behind).head?, Text.isBlank c) : more = [] := by
  cases more with
  | nil => rfl
  | cons c more =>
    have hsolid := (hcs.of_append hword).head_not_blank c rfl
    rw [hbehind c rfl] at hsolid
    cases hsolid

theorem not_numeral_append {blanks behind : List Char} (hblanks : ∀ c ∈ blanks.head?, Text.isBlank c)
    (hbehind : ∀ c ∈ behind.head?, ¬Number.IsNumeral c) : ∀ c ∈ (blanks ++ behind).head?, ¬Number.IsNumeral c := by
  cases blanks with
  | nil => exact hbehind
  | cons b blanks =>
    intro c hc hnumeral
    cases hc
    have hsolid := (Param.numeral_plain hnumeral).1
    rw [hblanks b rfl] at hsolid
    cases hsolid

theorem blank_head_words (words : List (List Char)) :
    ∀ c ∈ (words.flatMap (' ' :: ·)).head?, Text.isBlank c := by
  cases words with
  | nil => simp
  | cons word words =>
    intro c hc
    cases hc
    decide

theorem hashPair?_append_right {key value : List Char} (h : hashPair? word = some (key, value)) (more : List Char) :
    hashPair? (word ++ more) = some (key, value ++ more) := by
  obtain ⟨rfl, hne, hkey⟩ := hashPair?_eq_some h
  rw [List.append_assoc, List.cons_append, hashPair?_append hne hkey]

end Source

namespace Param

variable {param : Param} {word behind after : List Char}

theorem eq_of_numerals {text : List Char} (htext : ∀ c ∈ text, Number.IsNumeral c) (hword : IsWhole word)
    (heq : word ++ behind = text ++ after) (hbehind : ∀ c ∈ behind.head?, ¬Number.IsNumeral c)
    (hafter : ∀ c ∈ after.head?, Text.isBlank c) : word = text := by
  rcases List.append_eq_append_iff.1 heq with ⟨more, rfl, rfl⟩ | ⟨more, rfl, rfl⟩
  . -- the word ends first, and what is behind it belongs to the number
    cases more with
    | nil => rw [List.append_nil]
    | cons c more => exact absurd (htext c (by simp)) (hbehind c rfl)
  . -- the number ends first, and the word cannot go on over the blank behind it
    rw [eq_nil_of_whole_append (whole_of_numerals htext) hword hafter, List.append_nil]

theorem eq_text_of_read (hword : IsWhole word) (heq : word ++ behind = param.text.toList ++ after)
    (hbehind : ∀ c ∈ behind.head?, ¬Number.IsNumeral c) (hafter : ∀ c ∈ after.head?, Text.isBlank c)
    (hread : readParam word = param) : word = param.text.toList := by
  have hfrom := readParam_from word
  rw [hread] at hfrom
  cases param with
  | path text => exact hfrom.symm
  | str text =>
    obtain ⟨q, hq⟩ := hfrom
    apply List.append_inj_left heq
    simp [hq, toList_text_str]
  | int n => exact eq_of_numerals (fun _ hc => Number.repr_isNumeral hc) hword heq hbehind hafter
  | float x => exact eq_of_numerals (fun _ hc => Number.mem_write hc) hword heq hbehind hafter
  | bool b => exact hfrom
  | null => exact hfrom

theorem faithful_of_read (hword : IsWhole param.text.toList) (hread : readParam param.text.toList = param) :
    param.Faithful := by
  cases param with
  | str text => exact hword
  | float x => exact hread
  | path | int | bool | null => trivial

theorem str_or_word (hne : word ≠ []) (hword : IsWhole word) (hunnamed : hashPair? word = none)
    (hread : readParam word = param) :
    (∃ s, param = .str s) ∨
      (param.text.toList ≠ [] ∧ IsWhole param.text.toList ∧ hashPair? param.text.toList = none) := by
  cases param with
  | path text =>
    rw [← readParam_eq_path hread] at hne hword hunnamed
    exact .inr ⟨hne, hword, hunnamed⟩
  | str text => exact .inl ⟨text, rfl⟩
  | int n => exact .inr ⟨(positional_int n).nonempty, (positional_int n).whole, (positional_int n).unnamed⟩
  | float x =>
    have hnumerals : ∀ c ∈ (float x).text.toList, Number.IsNumeral c := fun _ hc => Number.mem_write hc
    exact .inr ⟨Number.write_ne_nil _ _, whole_of_numerals hnumerals, unnamed_of_numerals hnumerals⟩
  | bool b => exact .inr ⟨(positional_bool b).nonempty, (positional_bool b).whole, (positional_bool b).unnamed⟩
  | null => exact .inr ⟨positional_null.nonempty, positional_null.whole, positional_null.unnamed⟩

theorem text_head (hne : word ≠ []) (hword : IsWhole word) (hunnamed : hashPair? word = none)
    (hread : readParam word = param) :
    param.text.toList ≠ [] ∧ ∀ c ∈ param.text.toList.head?, Text.isBlank c = false := by
  rcases str_or_word hne hword hunnamed hread with ⟨s, rfl⟩ | ⟨htext, hwhole, -⟩
  . rw [toList_text_str]
    exact ⟨by simp, by simp; decide⟩
  . exact ⟨htext, hwhole.head_not_blank⟩

end Param

namespace Source

variable {call final : Call} {words : List (List Char)}

theorem params_prefix_of_run (h : words.foldlM addArgument call = .ok final) : call.params <+: final.params := by
  refine run_invariant (fun _ next => call.params <+: next.params) ?_ (List.prefix_refl _) h
  intro _ before word next hbefore hnext
  unfold addArgument at hnext
  split at hnext
  . dsimp only at hnext
    split at hnext
    . cases hnext
    . cases hnext
      exact hbefore
  . cases hnext
    exact hbefore.trans (List.prefix_append ..)

theorem get?_hash_of_run {key : String} {param : Param} (hparam : call.hash.get? key = some param)
    (h : words.foldlM addArgument call = .ok final) : final.hash.get? key = some param := by
  refine run_invariant (fun _ next => next.hash.get? key = some param) ?_ hparam h
  intro _ before word next hbefore hnext
  unfold addArgument at hnext
  split at hnext
  next other value _ =>
    dsimp only at hnext
    split at hnext
    . cases hnext
    next hfresh =>
      cases hnext
      have hother : key ≠ String.ofList other := by
        rintro rfl
        apply hfresh
        rw [Dict.contains, hbefore]
        rfl
      rw [Dict.get?_insert, if_neg hother]
      exact hbefore
  . cases hnext
    exact hbefore

theorem next_word {rest tail text after : List Char} (heq : rest ++ tail = ' ' :: (text ++ after))
    (hne : text ≠ []) (hhead : ∀ c ∈ text.head?, Text.isBlank c = false)
    (htail : ∀ c ∈ tail.head?, ¬Number.IsNumeral c) (hwords : splitWords rest = some words) :
    words = [] ∨ ∃ word behind others, words = word :: others ∧ word ≠ [] ∧ IsWhole word ∧
      splitWords behind = some others ∧ word ++ (behind ++ tail) = text ++ after ∧
      ∀ c ∈ (behind ++ tail).head?, ¬Number.IsNumeral c := by
  cases rest with
  | nil =>
    cases hwords
    exact .inl rfl
  | cons c rest =>
    rw [List.cons_append, List.cons.injEq] at heq
    obtain ⟨rfl, heq⟩ := heq
    rw [splitWords_blank (by decide)] at hwords
    by_cases hrest : rest = []
    . subst hrest
      cases hwords
      exact .inl rfl
    . have hfirst := Text.head?_of_append_eq heq hrest hne
      obtain ⟨word, behind, others, rfl, hword, rfl, hothers, hbehind⟩ :=
        splitWords_eq_cons hrest (hfirst ▸ hhead) hwords
      refine .inr ⟨word, behind, others, rfl, hword, (mem_splitWords hwords List.mem_cons_self).2, hothers, ?_, ?_⟩
      . rw [← heq, List.append_assoc]
      . exact not_numeral_append hbehind htail

end Source

namespace Call

variable {call final : Call} {words : List (List Char)} {rest tail after : List Char}

theorem hashPair?_of_positional {param : Param} {origin word behind : List Char} (horigin : origin ≠ [])
    (hwhole : IsWhole origin) (hunnamed : hashPair? origin = none) (hread : readParam origin = param)
    (hne : word ≠ []) (hword : IsWhole word) (heq : word ++ behind = param.text.toList ++ after)
    (hafter : ∀ c ∈ after.head?, Text.isBlank c) : hashPair? word = none := by
  rcases Param.str_or_word horigin hwhole hunnamed hread with ⟨s, rfl⟩ | ⟨-, htext, hnone⟩
  . obtain ⟨c, word, rfl⟩ := List.exists_cons_of_ne_nil hne
    -- the word begins with the quote of the string
    rw [Param.toList_text_str] at heq
    simp only [List.cons_append, List.cons.injEq] at heq
    rw [heq.1]
    exact hashPair?_cons_quote (by decide)
  . rcases List.append_eq_append_iff.1 heq with ⟨more, hmore, -⟩ | ⟨more, rfl, rfl⟩
    . rw [Option.eq_none_iff_forall_not_mem]
      rintro ⟨key, value⟩ hpair
      rw [hmore, hashPair?_append_right hpair] at hnone
      cases hnone
    . rw [eq_nil_of_whole_append htext hword hafter, List.append_nil]
      exact hnone

theorem params_of_run {params : List Param} {named : List (List Char)}
    (hread : ∀ param ∈ params, ∃ word, word ≠ [] ∧ IsWhole word ∧ hashPair? word = none ∧ readParam word = param)
    (hwords : splitWords rest = some words)
    (heq : rest ++ tail = (params.map (·.text.toList) ++ named).flatMap (' ' :: ·))
    (htail : ∀ c ∈ tail.head?, ¬Number.IsNumeral c)
    (hrun : words.foldlM addArgument call = .ok final) (hfinal : final.params = call.params ++ params) :
    (∀ param ∈ params, param.Faithful) ∧ ∃ behind others, splitWords behind = some others ∧
      behind ++ tail = named.flatMap (' ' :: ·) ∧
      others.foldlM addArgument { call with params := final.params } = .ok final := by
  induction params generalizing call words rest with
  | nil =>
    rw [List.append_nil] at hfinal
    refine ⟨by simp, rest, words, hwords, heq, ?_⟩
    rwa [hfinal]
  | cons param params ih =>
    obtain ⟨origin, horigin, hwhole, hunnamed, hparam⟩ := hread param List.mem_cons_self
    obtain ⟨htext, hhead⟩ := Param.text_head horigin hwhole hunnamed hparam
    rw [List.map_cons, List.cons_append, List.flatMap_cons, List.cons_append] at heq
    have hmore := blank_head_words (params.map (·.text.toList) ++ named)
    rcases next_word heq htext hhead htail hwords with
      rfl | ⟨word, behind, others, rfl, hne, hword, hothers, hnext, hbehind⟩
    . cases hrun
      simp at hfinal
    . rw [run_cons, addArgument, hashPair?_of_positional horigin hwhole hunnamed hparam hne hword hnext hmore] at hrun
      -- a run only adds arguments, so the one that the word adds is the next one of the call
      have hgrown := params_prefix_of_run hrun
      rw [hfinal, List.prefix_append_right_inj, List.cons_prefix_cons] at hgrown
      have hsame := Param.eq_text_of_read hword hnext hbehind hmore hgrown.1
      rw [hsame, List.append_cancel_left_eq] at hnext
      rw [hgrown.1] at hrun
      obtain ⟨hfaithful, hrest⟩ :=
        ih (fun p hp => hread p (List.mem_cons_of_mem _ hp)) hothers hnext hrun (by simp [hfinal])
      refine ⟨?_, hrest⟩
      intro p hp
      rcases List.mem_cons.1 hp with rfl | hp
      . exact Param.faithful_of_read (hsame ▸ hword) (hsame ▸ hgrown.1)
      . exact hfaithful p hp

theorem hashPair?_of_named {key : String} {param : Param} {word behind other value : List Char}
    (hkey : ∀ c ∈ key.toList, isKeyChar c) (hpair : hashPair? word = some (other, value)) (hword : IsWhole word)
    (heq : word ++ behind = (key.toList ++ '=' :: param.text.toList) ++ after) :
    other = key.toList ∧ IsWhole value ∧ value ++ behind = param.text.toList ++ after := by
  obtain ⟨rfl, -, hother⟩ := hashPair?_eq_some hpair
  simp only [List.append_assoc, List.cons_append] at heq
  have hsplit := Text.splitOnce_append (equals_not_mem_key hother) (value ++ behind)
  rw [heq, Text.splitOnce_append (equals_not_mem_key hkey)] at hsplit
  obtain ⟨rfl, hvalue⟩ := Prod.mk.inj (Option.some.inj hsplit)
  have hequals : IsWhole ['='] := by decide
  have hname := (isWhole_of_plain fun c hc => isKeyChar_plain (hother c hc)).append hequals
  exact ⟨rfl, hname.of_append (by rwa [List.append_assoc]), hvalue.symm⟩

theorem named_of_run {entries : List (String × Param)} (hne : ∀ key ∈ entries.map (·.1), key.toList ≠ [])
    (hkeys : ∀ key ∈ entries.map (·.1), ∀ c ∈ key.toList, isKeyChar c) (hwords : splitWords rest = some words)
    (heq : rest ++ tail =
      (entries.map fun (key, param) => key.toList ++ '=' :: param.text.toList).flatMap (' ' :: ·))
    (htail : ∀ c ∈ tail.head?, ¬Number.IsNumeral c)
    (hrun : words.foldlM addArgument call = .ok final) (hparams : final.params = call.params)
    (hhash : final.hash.entries = call.hash.entries ++ entries) :
    tail = [] ∧ ∀ entry ∈ entries, entry.2.Faithful := by
  induction entries generalizing call words rest with
  | nil => exact ⟨(List.append_eq_nil_iff.1 heq).2, by simp⟩
  | cons entry entries ih =>
    obtain ⟨key, param⟩ := entry
    simp only [List.map_cons, List.mem_cons, forall_eq_or_imp] at hne hkeys
    rw [List.map_cons, List.flatMap_cons, List.cons_append] at heq
    have hmore := blank_head_words (entries.map fun (key, param) => key.toList ++ '=' :: param.text.toList)
    have hhead : ∀ c ∈ (key.toList ++ '=' :: param.text.toList).head?, Text.isBlank c = false := by
      obtain ⟨c, cs, hc⟩ := List.exists_cons_of_ne_nil hne.1
      rw [hc] at hkeys ⊢
      simpa using (isKeyChar_plain (hkeys.1 c List.mem_cons_self)).1
    have hlast := Dict.lt_of_entries_append hhash
    have hfresh : key ∉ call.hash.keys := fun hmem => String.lt_irrefl _ (hlast key hmem)
    rcases next_word heq (by simp) hhead htail hwords with
      rfl | ⟨word, behind, others, rfl, -, hword, hothers, hnext, hbehind⟩
    . cases hrun
      simp at hhash
    . rw [run_cons, addArgument] at hrun
      cases hpair : hashPair? word with
      | none =>
        -- the word would be a positional argument more than the call has
        rw [hpair] at hrun
        have hgrown := (params_prefix_of_run hrun).length_le
        rw [hparams, List.length_append, List.length_singleton] at hgrown
        omega
      | some pair =>
        obtain ⟨hother, hwhole, hvalue⟩ := hashPair?_of_named hkeys.1 hpair hword hnext
        rw [hpair] at hrun
        dsimp only at hrun
        rw [hother, String.ofList_toList, Dict.contains_eq_false hfresh] at hrun
        -- no argument is replaced, so the call has the one that is read here
        have hread : readParam pair.2 = param := by
          have hkept := get?_hash_of_run (by rw [Dict.get?_insert, if_pos rfl]) hrun
          rw [Dict.get?_of_entries_append hhash hfresh] at hkept
          exact (Option.some.inj hkept).symm
        have hsame := Param.eq_text_of_read hwhole hvalue hbehind hmore hread
        rw [hsame, List.append_cancel_left_eq] at hvalue
        rw [hread] at hrun
        have hdone : final.hash.entries = (call.hash.insert key param).entries ++ entries := by
          simp [Dict.entries_insert hlast, hhash]
        obtain ⟨htail, hfaithful⟩ := ih hne.2 hkeys.2 hothers hvalue hrun hparams hdone
        refine ⟨htail, ?_⟩
        intro entry hentry
        rcases List.mem_cons.1 hentry with rfl | hentry
        . exact Param.faithful_of_read (hsame ▸ hwhole) (hsame ▸ hread)
        . exact hfaithful entry hentry

/--
A call that is read from a part of its text is read from all of it, and is faithful. What is missing of the text does
not begin in the middle of a number.
-/
theorem IsRead.faithful_of_readCall (h : call.IsRead) {content : List Char} (hread : readCall content = .ok call)
    (heq : content ++ tail = call.text.toList) (htail : ∀ c ∈ tail.head?, ¬Number.IsNumeral c) :
    tail = [] ∧ call.Faithful := by
  obtain ⟨name, words, hwords, -, hname, hrun⟩ := readCall_eq_ok hread
  have hne : content ≠ [] := by
    rintro rfl
    cases hwords
  rw [toList_text] at heq
  have hhead := Text.head?_of_append_eq heq hne h.name_ne
  obtain ⟨first, rest, others, hcons, -, rfl, hrest, -⟩ :=
    splitWords_eq_cons hne (hhead ▸ h.name_whole.head_not_blank) hwords
  cases hcons
  rw [hname, String.toList_ofList, List.append_assoc, List.append_cancel_left_eq] at heq
  obtain ⟨hparams, behind, named, hnamed, hbehind, hrun⟩ := params_of_run h.params hrest heq htail hrun rfl
  obtain ⟨rfl, hvalues⟩ := named_of_run h.keys_ne h.keys hnamed hbehind htail hrun rfl rfl
  exact ⟨rfl, hparams, hvalues⟩

theorem IsRead.text_head (h : call.IsRead) : ∀ c ∈ call.text.toList.head?, c ∈ call.name.toList.head? := by
  intro c hc
  rwa [toList_text, List.head?_append, Option.or_of_isSome (by simp [h.name_ne])] at hc

theorem IsRead.faithful_of_trim (h : call.IsRead) {cs : List Char} (hread : readCall (Text.trim cs) = .ok call)
    (heq : cs ++ tail = call.text.toList) (htail : ∀ c ∈ tail.head?, ¬Number.IsNumeral c) :
    tail = [] ∧ call.Faithful := by
  have hhead : ∀ c ∈ cs.head?, Text.isBlank c = false := by
    intro c hc
    apply h.name_whole.head_not_blank c
    apply h.text_head
    rw [← heq, List.head?_append, hc]
    rfl
  -- the blanks at the end are missing, too, but no number goes on with one
  obtain ⟨blanks, hcs, hblanks⟩ := Text.exists_trimEnd_append cs
  rw [Text.trim, Text.trimStart_eq_self hhead] at hread
  rw [hcs, List.append_assoc] at heq
  have hnumeral := not_numeral_append (fun c hc => hblanks c (List.mem_of_mem_head? hc)) htail
  obtain ⟨hnil, hfaithful⟩ := h.faithful_of_readCall hread heq hnumeral
  exact ⟨(List.append_eq_nil_iff.1 hnil).2, hfaithful⟩

end Call

end Mustache
