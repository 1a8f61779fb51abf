import Mustache.Proofs.Dict
import Mustache.Proofs.Numerals
import Mustache.Proofs.Run
import Mustache.Proofs.Search
import Mustache.Proofs.Words
import Mustache.Source.Expression
import Mustache.Tree.Text

/-!
This module contains the reading of a call. The main statement is that a call is read back from its text if each of
its arguments is.
-/

namespace Mustache

namespace Source

theorem addArgument_name {call next : Call} {word : List Char} (h : addArgument call word = .ok next) :
    next.name = call.name := by
  unfold addArgument at h
  split at h
  . dsimp only at h
    split at h
    . cases h
    . cases h
      rfl
  . cases h
    rfl

theorem readCall_eq_ok {content : List Char} {call : Call} (h : readCall content = .ok call) :
    ∃ name words, splitWords content = some (name :: words) ∧ unquote? name = none ∧
      call.name = String.ofList name ∧ words.foldlM addArgument { name := String.ofList name } = .ok call := by
  unfold readCall at h
  split at h
  . cases h
  . cases h
  next name words hwords =>
    split at h
    . cases h
    next hname =>
      refine ⟨name, words, hwords, by simpa using hname, ?_, h⟩
      refine run_invariant (fun _ call => call.name = String.ofList name) ?_ rfl h
      intro _ _ _ _ hcall hnext
      rw [addArgument_name hnext, hcall]

theorem readCall_name_ne {content : List Char} {call : Call} (h : readCall content = .ok call) :
    call.name ≠ "" := by
  obtain ⟨name, words, hwords, -, hname, -⟩ := readCall_eq_ok h
  have hne := (mem_splitWords hwords List.mem_cons_self).1
  rw [hname]
  simpa using hne

def blankCodes : List Nat :=
  [
    9, 10, 11, 12, 13, 0x20, 0x85, 0xA0, 0x1680, 0x2000, 0x2001, 0x2002, 0x2003, 0x2004, 0x2005, 0x2006, 0x2007,
    0x2008, 0x2009, 0x200A, 0x2028, 0x2029, 0x202F, 0x205F, 0x3000
  ]

theorem mem_blankCodes {c : Char} (h : Text.isBlank c) : c.toNat ∈ blankCodes := by
  simp only [Text.isBlank, Bool.or_eq_true, Bool.and_eq_true, decide_eq_true_eq, beq_iff_eq] at h
  simp only [blankCodes, List.mem_cons, List.not_mem_nil, or_false]
  omega

theorem isBlank_not_alphanumeric {c : Char} (h : Text.isBlank c) : Text.isAlphanumeric c = false := by
  have hascii : ∀ n ∈ blankCodes, n < 128 → (Char.ofNat n).isAlphanum = false := by decide
  have hranges : ∀ n ∈ blankCodes, Text.alphanumericRanges.contains (Char.ofNat n) = false := by
    decide +kernel
  have hmem := mem_blankCodes h
  unfold Text.isAlphanumeric
  split
  next hlt =>
    have := hascii _ hmem hlt
    rwa [Char.ofNat_toNat] at this
  . have := hranges _ hmem
    rwa [Char.ofNat_toNat] at this

theorem isKeyChar_plain {c : Char} (h : isKeyChar c) : Text.isBlank c = false ∧ isQuote c = false := by
  constructor
  . rw [← Bool.not_eq_true]
    intro hblank
    have halpha := isBlank_not_alphanumeric hblank
    simp only [isKeyChar, halpha, Bool.false_or, Bool.or_eq_true, beq_iff_eq] at h
    rcases h with (rfl | rfl) | rfl <;> exact absurd hblank (by decide)
  . rw [← Bool.not_eq_true]
    intro hquote
    simp only [isQuote, Bool.or_eq_true, beq_iff_eq] at hquote
    rcases hquote with rfl | rfl <;> exact absurd h (by decide)

theorem equals_not_mem_key {key : List Char} (h : ∀ c ∈ key, isKeyChar c) : '=' ∉ key := by
  intro hmem
  exact absurd (h _ hmem) (by decide)

theorem hashPair?_of_not_mem {word : List Char} (h : '=' ∉ word) : hashPair? word = none := by
  rw [hashPair?, Text.splitOnce_of_not_mem h, Option.filter_none]

theorem hashPair?_eq_some {word key value : List Char} (h : hashPair? word = some (key, value)) :
    word = key ++ '=' :: value ∧ key ≠ [] ∧ ∀ c ∈ key, isKeyChar c := by
  obtain ⟨hsplit, hkey⟩ := Option.filter_eq_some_iff.1 h
  simp only [Bool.and_eq_true, Bool.not_eq_true', List.isEmpty_eq_false_iff, List.all_eq_true] at hkey
  exact ⟨Text.splitOnce_eq_some hsplit, hkey⟩

theorem hashPair?_append {key : List Char} (hne : key ≠ []) (hkey : ∀ c ∈ key, isKeyChar c) (value : List Char) :
    hashPair? (key ++ '=' :: value) = some (key, value) := by
  rw [hashPair?, Text.splitOnce_append (equals_not_mem_key hkey)]
  refine Option.filter_some_pos ?_
  simpa [hne] using hkey

theorem hashPair?_cons_quote {q : Char} {word : List Char} (hq : isQuote q) : hashPair? (q :: word) = none := by
  rw [Option.eq_none_iff_forall_not_mem]
  rintro ⟨key, value⟩ h
  obtain ⟨hword, hne, hkey⟩ := hashPair?_eq_some h
  cases key with
  | nil => exact hne rfl
  | cons c key =>
    rw [List.cons_append, List.cons.injEq] at hword
    have hc := (isKeyChar_plain (hkey c List.mem_cons_self)).2
    rw [← hword.1, hq] at hc
    cases hc

theorem unquote?_of_plain {word : List Char} (h : ∀ c ∈ word, isQuote c = false) : unquote? word = none := by
  cases word with
  | nil => rfl
  | cons c word => simp [unquote?, h c List.mem_cons_self]

end Source

open Source

structure Param.Legible (param : Param) : Prop where
  whole : IsWhole param.text.toList
  read : readParam param.text.toList = param

/--
An argument whose text is one word, which does not look like a named argument.
-/
structure Param.Positional (param : Param) : Prop extends param.Legible where
  nonempty : param.text.toList ≠ []
  unnamed : hashPair? param.text.toList = none

namespace Param

theorem toList_text_str (s : String) : (str s).text.toList = '\x22' :: s.toList ++ ['\x22'] := by
  simp [text]

theorem positional_of_keyChars {param : Param} (hne : param.text.toList ≠ [])
    (h : ∀ c ∈ param.text.toList, isKeyChar c) (hread : readParam param.text.toList = param) :
    param.Positional where
  whole := isWhole_of_plain fun c hc => isKeyChar_plain (h c hc)
  read := hread
  nonempty := hne
  unnamed := hashPair?_of_not_mem (equals_not_mem_key h)

theorem positional_bool (b : Bool) : (bool b).Positional := by
  cases b with
  | true => exact positional_of_keyChars (by decide) (by decide) (by rfl)
  | false => exact positional_of_keyChars (by decide) (by decide) (by rfl)

theorem positional_null : null.Positional :=
  positional_of_keyChars (by decide) (by decide) (by rfl)

theorem isAlphanumeric_digit {c : Char} (h : c.isDigit) : Text.isAlphanumeric c := by
  have hlt : c.toNat < 128 := by
    simp only [Char.isDigit, Bool.and_eq_true, decide_eq_true_eq, UInt32.le_iff_toNat_le] at h
    exact Nat.lt_of_le_of_lt h.2 (by decide)
  simp [Text.isAlphanumeric, hlt, Char.isAlphanum, h]

theorem isKeyChar_numeral {c : Char} (h : c = '-' ∨ c.isDigit) : isKeyChar c := by
  rcases h with rfl | h
  . decide
  . simp [isKeyChar, isAlphanumeric_digit h]

theorem numeral_ne {n : Int} {s : String} (h : ∃ c ∈ s.toList, ¬(c = '-' ∨ c.isDigit)) :
    n.repr.toList ≠ s.toList := by
  intro heq
  obtain ⟨c, hc, hbad⟩ := h
  exact hbad (Number.mem_repr (heq ▸ hc))

theorem positional_int (n : Int64) : (int n).Positional := by
  have hkey : ∀ c ∈ n.toInt.repr.toList, isKeyChar c := fun c hc => isKeyChar_numeral (Number.mem_repr hc)
  refine positional_of_keyChars (Number.repr_ne_nil _) hkey ?_
  rw [text, readParam, unquote?_of_plain fun c hc => (isKeyChar_plain (hkey c hc)).2]
  dsimp only
  rw [if_neg (numeral_ne (by decide)), if_neg (numeral_ne (by decide)), if_neg (numeral_ne (by decide)),
    Number.readInt64_repr]

theorem numeral_plain {c : Char} (h : Number.IsNumeral c) :
    Text.isBlank c = false ∧ isQuote c = false ∧ c ≠ '=' := by
  rcases h with h | h
  . have hkey := isKeyChar_numeral (.inr h)
    refine ⟨(isKeyChar_plain hkey).1, (isKeyChar_plain hkey).2, ?_⟩
    rintro rfl
    exact absurd hkey (by decide)
  . have hmarks : ∀ c ∈ Number.floatMarks, Text.isBlank c = false ∧ isQuote c = false ∧ c ≠ '=' := by decide
    exact hmarks c h

theorem whole_of_numerals {cs : List Char} (h : ∀ c ∈ cs, Number.IsNumeral c) : IsWhole cs :=
  isWhole_of_plain fun c hc => ⟨(numeral_plain (h c hc)).1, (numeral_plain (h c hc)).2.1⟩

theorem unnamed_of_numerals {cs : List Char} (h : ∀ c ∈ cs, Number.IsNumeral c) : hashPair? cs = none :=
  hashPair?_of_not_mem fun hmem => (numeral_plain (h _ hmem)).2.2 rfl

theorem positional_float {x : Float} (h : readParam (float x).text.toList = float x) : (float x).Positional where
  whole := whole_of_numerals fun _ hc => Number.mem_write hc
  read := h
  nonempty := Number.write_ne_nil _ _
  unnamed := unnamed_of_numerals fun _ hc => Number.mem_write hc

theorem positional_str_of_whole {s : String} (h : IsWhole (str s).text.toList) : (str s).Positional := by
  have hunquote : unquote? ('\x22' :: s.toList ++ ['\x22']) = some s.toList := by
    simp [unquote?, isQuote]
  refine ⟨⟨h, ?_⟩, ?_, ?_⟩
  . rw [toList_text_str, readParam, hunquote]
    dsimp only
    rw [String.ofList_toList]
  . rw [toList_text_str]
    simp
  . rw [toList_text_str]
    exact hashPair?_cons_quote (by decide)

theorem positional_str {s : String} (h : '\x22' ∉ s.toList) : (str s).Positional := by
  apply positional_str_of_whole
  rw [toList_text_str]
  exact isWhole_quoted h

end Param

namespace Call

def arguments (call : Call) : List (List Char) :=
  call.params.map (·.text.toList) ++ call.hash.entries.map fun (key, param) => key.toList ++ '=' :: param.text.toList

theorem toList_text (call : Call) :
    call.text.toList = call.name.toList ++ call.arguments.flatMap (' ' :: ·) := by
  simp [text, arguments, String.toList_join, List.flatMap_map]

theorem text_eq_name {call : Call} (h : ' ' ∉ call.text.toList) :
    call.params = [] ∧ call.hash = ∅ ∧ call.text = call.name := by
  have harguments : call.arguments = [] := by
    rw [List.eq_nil_iff_forall_not_mem]
    intro word hword
    apply h
    rw [toList_text, List.mem_append, List.mem_flatMap]
    exact .inr ⟨word, hword, List.mem_cons_self⟩
  have htext := call.toList_text
  rw [harguments, List.flatMap_nil, List.append_nil, String.toList_inj] at htext
  simp only [arguments, List.append_eq_nil_iff, List.map_eq_nil_iff] at harguments
  exact ⟨harguments.1, Dict.entries_eq_nil_iff.1 harguments.2, htext⟩

structure Legible (call : Call) : Prop where
  name_ne : call.name.toList ≠ []
  name_whole : IsWhole call.name.toList
  name_unquoted : unquote? call.name.toList = none
  params : ∀ param ∈ call.params, param.Positional
  keys_ne : ∀ key ∈ call.hash.keys, key.toList ≠ []
  keys : ∀ key ∈ call.hash.keys, ∀ c ∈ key.toList, isKeyChar c
  values : ∀ entry ∈ call.hash, entry.2.Legible

theorem addArgument_positional {param : Param} (h : param.Positional) (call : Call) :
    addArgument call param.text.toList = .ok { call with params := call.params ++ [param] } := by
  rw [addArgument, h.unnamed]
  dsimp only
  rw [h.read]
  rfl

theorem addArgument_named {key : String} {param : Param} (hne : key.toList ≠ [])
    (hkey : ∀ c ∈ key.toList, isKeyChar c) (hparam : param.Legible) {call : Call} (hfresh : key ∉ call.hash.keys) :
    addArgument call (key.toList ++ '=' :: param.text.toList) =
      .ok { call with hash := call.hash.insert key param } := by
  rw [addArgument, hashPair?_append hne hkey]
  dsimp only
  rw [String.ofList_toList, Dict.contains_eq_false hfresh, hparam.read]
  rfl

theorem run_positional {params : List Param} (h : ∀ param ∈ params, param.Positional) (call : Call) :
    (params.map (·.text.toList)).foldlM addArgument call = .ok { call with params := call.params ++ params } := by
  induction params generalizing call with
  | nil =>
    rw [List.append_nil]
    rfl
  | cons param params ih =>
    rw [List.map_cons, run_cons, addArgument_positional (h _ List.mem_cons_self), Except.bind,
      ih fun p hp => h p (List.mem_cons_of_mem _ hp), List.append_assoc]
    rfl

theorem run_named {entries : List (String × Param)} (hne : ∀ key ∈ entries.map (·.1), key.toList ≠ [])
    (hkeys : ∀ key ∈ entries.map (·.1), ∀ c ∈ key.toList, isKeyChar c) (hvalues : ∀ entry ∈ entries, entry.2.Legible)
    {call : Call} {hash : Dict Param} (hhash : hash.entries = call.hash.entries ++ entries) :
    (entries.map fun (key, param) => key.toList ++ '=' :: param.text.toList).foldlM addArgument call =
      .ok { call with hash } := by
  induction entries generalizing call with
  | nil =>
    rw [List.append_nil] at hhash
    rw [Dict.ext hhash]
    rfl
  | cons entry entries ih =>
    obtain ⟨key, param⟩ := entry
    simp only [List.map_cons, List.mem_cons, forall_eq_or_imp] at hne hkeys hvalues
    have hlast := Dict.lt_of_entries_append hhash
    have hfresh : key ∉ call.hash.keys := fun hmem => String.lt_irrefl _ (hlast key hmem)
    rw [List.map_cons, run_cons, addArgument_named hne.1 hkeys.1 hvalues.1 hfresh, Except.bind,
      ih hne.2 hkeys.2 hvalues.2]
    rw [Dict.entries_insert hlast, hhash, List.append_assoc]
    rfl

namespace Legible

variable {call : Call}

theorem argument_whole (h : call.Legible) : ∀ word ∈ call.arguments, word ≠ [] ∧ IsWhole word := by
  intro word hword
  rcases List.mem_append.1 hword with hword | hword
  . obtain ⟨param, hparam, rfl⟩ := List.mem_map.1 hword
    exact ⟨(h.params param hparam).nonempty, (h.params param hparam).whole⟩
  . obtain ⟨⟨key, param⟩, hentry, rfl⟩ := List.mem_map.1 hword
    have hkey : key ∈ call.hash.keys := List.mem_map_of_mem hentry
    have hequals : IsWhole ['='] := by decide
    have hwhole := (isWhole_of_plain fun c hc => isKeyChar_plain (h.keys key hkey c hc)).append
      (hequals.append (h.values _ hentry).whole)
    exact ⟨by simp, by simpa using hwhole⟩

/--
A call is read back from its text if each of its arguments is.
-/
theorem readCall_text (h : call.Legible) : readCall call.text.toList = .ok call := by
  have hrun : call.arguments.foldlM addArgument { name := call.name } = .ok call := by
    rw [arguments, run_append, run_positional h.params, Except.bind, List.nil_append]
    exact run_named h.keys_ne h.keys h.values rfl
  rw [readCall, toList_text, splitWords_join ⟨h.name_ne, h.name_whole⟩ h.argument_whole]
  dsimp only
  rw [h.name_unquoted, String.ofList_toList]
  exact hrun

end Legible

end Call

end Mustache
