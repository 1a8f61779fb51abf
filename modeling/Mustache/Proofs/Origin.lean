import Mustache.Proofs.Grammar
import Mustache.Proofs.Scanning

/-!
This module contains what calls and tags are like that are read from a source.
-/

namespace Mustache

open Source

def Param.From (word : List Char) : Param → Prop
  | .path text => text.toList = word
  | .str text => ∃ q, word = q :: text.toList ++ [q]
  | .bool b => word = (bool b).text.toList
  | .null => word = null.text.toList
  | .int _ | .float _ => True

theorem Source.unquote?_eq_some {word inner : List Char} (h : unquote? word = some inner) :
    ∃ q, word = q :: inner ++ [q] := by
  cases word with
  | nil => cases h
  | cons q cs =>
    rw [unquote?] at h
    split at h
    next hquoted =>
      cases h
      simp only [Bool.and_eq_true, beq_iff_eq] at hquoted
      obtain ⟨inner, rfl⟩ := List.getLast?_eq_some_iff.1 hquoted.2
      exact ⟨q, by simp⟩
    . cases h

theorem Source.readParam_from (word : List Char) : (readParam word).From word := by
  unfold readParam
  split
  next inner hinner =>
    rw [Param.From, String.toList_ofList]
    exact unquote?_eq_some hinner
  . split
    next htrue => exact htrue
    . split
      next hfalse => exact hfalse
      . split
        next hnull => exact hnull
        . split
          . trivial
          . split
            . trivial
            . exact String.toList_ofList

theorem Source.readParam_eq_path {word : List Char} {text : String} (h : readParam word = .path text) :
    text.toList = word := by
  have hfrom := readParam_from word
  rwa [h] at hfrom

namespace Call

/--
A call that is read from words.
-/
structure IsRead (call : Call) : Prop where
  name_ne : call.name.toList ≠ []
  name_whole : IsWhole call.name.toList
  name_unquoted : unquote? call.name.toList = none
  params : ∀ param ∈ call.params, ∃ word, word ≠ [] ∧ IsWhole word ∧ hashPair? word = none ∧ readParam word = param
  keys_ne : ∀ key ∈ call.hash.keys, key.toList ≠ []
  keys : ∀ key ∈ call.hash.keys, ∀ c ∈ key.toList, isKeyChar c
  values : ∀ entry ∈ call.hash, ∃ word, IsWhole word ∧ readParam word = entry.2

theorem IsRead.step {call next : Call} {word : List Char} (h : call.IsRead) (hne : word ≠ []) (hword : IsWhole word)
    (hnext : addArgument call word = .ok next) : next.IsRead := by
  unfold addArgument at hnext
  split at hnext
  next key value hpair =>
    dsimp only at hnext
    split at hnext
    . cases hnext
    . cases hnext
      obtain ⟨rfl, hkey, hkeys⟩ := hashPair?_eq_some hpair
      refine ⟨h.name_ne, h.name_whole, h.name_unquoted, h.params, ?_, ?_, ?_⟩
      . intro k hk
        rcases Dict.mem_keys_insert hk with rfl | hk
        . rwa [String.toList_ofList]
        . exact h.keys_ne k hk
      . intro k hk
        rcases Dict.mem_keys_insert hk with rfl | hk
        . rwa [String.toList_ofList]
        . exact h.keys k hk
      . intro entry hentry
        rcases Dict.mem_insert hentry with rfl | hentry
        . -- the value is what follows the name and the `=`, which are whole by themselves
          have hequals : IsWhole ['='] := by decide
          have hwhole := (isWhole_of_plain fun c hc => isKeyChar_plain (hkeys c hc)).append hequals
          refine ⟨value, hwhole.of_append ?_, rfl⟩
          rwa [List.append_assoc]
        . exact h.values entry hentry
  next hpair =>
    cases hnext
    refine ⟨h.name_ne, h.name_whole, h.name_unquoted, ?_, h.keys_ne, h.keys, h.values⟩
    intro param hparam
    rcases List.mem_append.1 hparam with hparam | hparam
    . exact h.params param hparam
    . rw [List.mem_singleton.1 hparam]
      exact ⟨word, hne, hword, hpair, rfl⟩

theorem isRead_of_readCall {content : List Char} {call : Call} (h : readCall content = .ok call) : call.IsRead := by
  obtain ⟨name, words, hwords, hunquoted, -, hrun⟩ := readCall_eq_ok h
  obtain ⟨hne, hwhole⟩ := mem_splitWords hwords List.mem_cons_self
  let Holds (done : List (List Char)) (call : Call) : Prop := (∀ w ∈ done, w ≠ [] ∧ IsWhole w) → call.IsRead
  have hholds : Holds words call := by
    refine run_invariant Holds ?_ ?_ hrun
    . intro done call word next hcall hnext hdone
      obtain ⟨hne, hword⟩ := hdone word (by simp)
      exact (hcall fun w hw => hdone w (List.mem_append_left _ hw)).step hne hword hnext
    . intro _
      rw [← String.toList_ofList (l := name)] at hne hwhole hunquoted
      exact ⟨hne, hwhole, hunquoted, by simp, by simp, by simp, by simp⟩
  exact hholds fun w hw => mem_splitWords hwords (List.mem_cons_of_mem _ hw)

theorem head?_name {content : List Char} {call : Call} (h : readCall content = .ok call)
    (hhead : ∀ c ∈ content.head?, Text.isBlank c = false) : call.name.toList.head? = content.head? := by
  obtain ⟨name, words, hwords, -, hname, -⟩ := readCall_eq_ok h
  have hne : content ≠ [] := by
    rintro rfl
    cases hwords
  obtain ⟨first, rest, others, hcons, hfirst, rfl, -⟩ := splitWords_eq_cons hne hhead hwords
  cases hcons
  rw [hname, String.toList_ofList, List.head?_append, Option.or_of_isSome (by simp [hfirst])]

theorem run_empty {call next : Call} {words : List (List Char)} (h : words.foldlM addArgument call = .ok next)
    (hparams : next.params = []) (hhash : next.hash = ∅) : words = [] := by
  let Holds (done : List (List Char)) (call : Call) : Prop := done = [] ∨ call.params ≠ [] ∨ call.hash ≠ ∅
  have hholds : Holds words next := by
    refine run_invariant Holds ?_ (.inl rfl) h
    intro done call word next _ hnext
    unfold addArgument at hnext
    split at hnext
    . dsimp only at hnext
      split at hnext
      . cases hnext
      . cases hnext
        exact .inr (.inr (Dict.insert_ne_empty _ _ _))
    . cases hnext
      exact .inr (.inl (by simp))
  rcases hholds with hnil | hne | hne
  . exact hnil
  . exact absurd hparams hne
  . exact absurd hhash hne

theorem content_eq_name {content : List Char} {call : Call} (h : readCall content = .ok call)
    (hhead : ∀ c ∈ content.head?, Text.isBlank c = false) (hlast : ∀ c ∈ content.getLast?, Text.isBlank c = false)
    (hparams : call.params = []) (hhash : call.hash = ∅) : content = call.name.toList := by
  obtain ⟨name, words, hwords, -, hname, hrun⟩ := readCall_eq_ok h
  rw [run_empty hrun hparams hhash] at hwords
  rw [hname, String.toList_ofList, splitWords_singleton hhead hlast hwords]

end Call

namespace Source

structure Tag.Scanned (d : Delimiters) (tag : Tag) : Prop where
  delimiters : tag.delimiters = d
  comment : tag.kind = .comment → Text.Clears d.stop.toList ('!' :: tag.content)
  head : tag.kind = .escaped → ∀ c ∈ tag.content.head?, Text.isBlank c = false ∧ c ∉ sigils
  last : tag.kind = .escaped → ∀ c ∈ tag.content.getLast?, Text.isBlank c = false
  triple : tag.kind = .triple → d.start = Delimiters.standard.start

def Token.Scanned (d : Delimiters) : Token → Prop
  | .text cs => cs ≠ [] ∧ Text.Clears d.start.toList cs
  | .tag t => t.Scanned d

def Token.isText : Token → Bool
  | .text _ => true
  | .tag _ => false

def Separated (tokens : List Token) : Prop :=
  ∀ before after a b, tokens = before ++ a :: b :: after → a.isText → b.isText = false

theorem separated_nil : Separated [] := by
  intro before after a b h
  simp at h

theorem Separated.cons {token : Token} {tokens : List Token} (h : Separated tokens)
    (htoken : token.isText → ∀ next ∈ tokens.head?, next.isText = false) : Separated (token :: tokens) := by
  intro before after a b heq ha
  cases before with
  | nil =>
    cases heq
    exact htoken ha b rfl
  | cons c before =>
    cases heq
    exact h before after a b rfl ha

theorem Separated.tail {token : Token} {tokens : List Token} (h : Separated (token :: tokens)) :
    Separated tokens := by
  intro before after a b heq
  exact h (token :: before) after a b (by rw [heq, List.cons_append])

theorem Separated.head {token next : Token} {tokens : List Token} (h : Separated (token :: tokens))
    (htoken : token.isText) (hnext : next ∈ tokens.head?) : next.isText = false := by
  obtain ⟨rest, rfl⟩ := List.head?_eq_some_iff.1 hnext
  exact h [] rest token next rfl htoken

theorem Separated.middle {all : List Token} (h : Separated all) (before tokens after : List Token)
    (hall : all = before ++ tokens ++ after) : Separated tokens := by
  intro first last a b heq
  apply h (before ++ first) (last ++ after)
  simp [hall, heq]

theorem Piece.token?_eq_tag {piece : Piece} {tag : Tag} (h : piece.token? = some (.tag tag)) :
    piece.reading = .tag tag.kind tag.content ∧ tag.position = piece.position ∧
      tag.delimiters = piece.delimiters := by
  obtain ⟨span, position, delimiters, reading⟩ := piece
  cases reading <;> cases h
  exact ⟨rfl, rfl, rfl⟩

namespace Scanner

theorem Yields.rest_eq {s last : Scanner} {ps : List Piece} (h : Yields s ps last) :
    s.rest = ps.flatMap Piece.span ++ last.rest := by
  induction h with
  | refl => rfl
  | step hstep _ ih => rw [(written_of_step hstep).2.1, ih, List.flatMap_cons, List.append_assoc]

variable {d : Delimiters} {rest span : List Char} {reading : Reading}

theorem Written.scanned {p : Position} {token : Token} (h : Written d rest span reading) (hrest : rest ≠ [])
    (htoken : Piece.token? ⟨span, p, d, reading⟩ = some token) : token.Scanned d := by
  cases h with
  | text hne hcut =>
    cases htoken
    obtain ⟨-, hclears, -⟩ := Text.breakOn_eq_found hcut hrest
    exact ⟨hne, hclears⟩
  | @tag inner reading hd hclears _ hread =>
    cases reading with
    | text => exact absurd hread (readTag_ne_text inner)
    | change new => cases htoken
    | tag kind content =>
      cases htoken
      obtain ⟨htriple, hcomment, hescaped⟩ := readTag_eq_tag hread
      have hstop := (proper_iff.1 hd).2
      refine ⟨rfl, ?_, ?_, ?_, ?_⟩
      . intro hkind
        obtain ⟨before, rfl⟩ := hcomment hkind
        exact hclears.of_append hstop
      . intro hkind
        obtain ⟨rfl, hsigil⟩ := hescaped hkind
        exact fun c hc => ⟨Text.trim_head inner c hc, hsigil c hc⟩
      . intro hkind
        obtain ⟨rfl, -⟩ := hescaped hkind
        exact Text.trim_last inner
      . exact fun hkind => absurd hkind htriple
  | triple hstart hclears =>
    cases htoken
    exact ⟨rfl, by simp, by simp, by simp, fun _ => hstart⟩

theorem Written.cut (h : Written d rest span .text) :
    span ≠ [] ∧ Text.breakOn d.start.toList (span ++ rest) = (span, rest) := by
  cases h with
  | text hne hcut => exact ⟨hne, hcut⟩
  | tag _ _ _ hread => exact absurd hread (readTag_ne_text _)

variable {s next : Scanner} {piece : Piece}

theorem reading_ne_text (hstep : s.step = .piece piece next) (hne : s.delimiters.start.toList ≠ [])
    (hstart : s.delimiters.start.toList <+: s.rest) : piece.reading ≠ .text := by
  intro htext
  obtain ⟨hwritten, hrest, -⟩ := written_of_step hstep
  rw [htext] at hwritten
  obtain ⟨hspan, hcut⟩ := hwritten.cut
  rw [← hrest, Text.breakOn_of_starts hne hstart, Prod.mk.injEq] at hcut
  exact hspan hcut.1.symm

theorem start_of_text (hstep : s.step = .piece piece next) (htext : piece.reading = .text) (hrest : next.rest ≠ []) :
    s.delimiters.start.toList ≠ [] ∧ s.delimiters.start.toList <+: next.rest := by
  obtain ⟨hwritten, -, -⟩ := written_of_step hstep
  rw [htext] at hwritten
  obtain ⟨-, hcut⟩ := hwritten.cut
  have hfound := @Text.breakOn_found s.delimiters.start.toList (piece.span ++ next.rest) (by rwa [hcut])
  rwa [hcut] at hfound

theorem piece_delimiters (hstep : s.step = .piece piece next) :
    piece.delimiters = s.delimiters ∧ next.delimiters = piece.delimitersAfter := by
  have hemit := (written_of_step hstep).2.2
  simp only [emit, Step.piece.injEq] at hemit
  obtain ⟨hpiece, hnext⟩ := hemit
  rw [hpiece] at hnext
  exact ⟨by rw [← hpiece], by rw [← hnext]⟩

theorem token_of_step (hstep : s.step = .piece piece next) (hrest : next.rest ≠ [])
    (hkept : ∀ d, piece.reading ≠ .change d) :
    next.delimiters = s.delimiters ∧
      ∃ token, piece.token? = some token ∧ token.Scanned s.delimiters ∧ (token.isText ↔ piece.reading = .text) := by
  obtain ⟨hwritten, -, -⟩ := written_of_step hstep
  obtain ⟨hpiece, hnext⟩ := piece_delimiters hstep
  obtain ⟨span, p, d, reading⟩ := piece
  dsimp only at *
  subst hpiece
  cases reading with
  | text => exact ⟨hnext, _, rfl, hwritten.scanned hrest rfl, by simp [Token.isText]⟩
  | tag kind content => exact ⟨hnext, _, rfl, hwritten.scanned hrest rfl, by simp [Token.isText]⟩
  | change d => exact absurd rfl (hkept d)

theorem Yields.scanned {last : Scanner} {ps : List Piece} (h : Yields s ps last) (hlast : last.rest ≠ [])
    (hkept : ∀ p ∈ ps, ∀ d, p.reading ≠ .change d) :
    last.delimiters = s.delimiters ∧ (∀ token ∈ ps.filterMap Piece.token?, token.Scanned s.delimiters) ∧
      Separated (ps.filterMap Piece.token?) ∧
      (s.delimiters.start.toList ≠ [] → s.delimiters.start.toList <+: s.rest →
        ∀ token ∈ (ps.filterMap Piece.token?).head?, token.isText = false) := by
  induction h with
  | refl => exact ⟨rfl, by simp, separated_nil, by simp⟩
  | @step s next last piece ps hstep hrest ih =>
    have hnext : next.rest ≠ [] := by
      rw [hrest.rest_eq]
      simp [hlast]
    obtain ⟨hdelimiters, token, htoken, hscanned, htext⟩ :=
      token_of_step hstep hnext (hkept piece List.mem_cons_self)
    obtain ⟨hkeptlast, htokens, hseparated, hhead⟩ := ih hlast fun p hp => hkept p (List.mem_cons_of_mem _ hp)
    rw [hdelimiters] at hkeptlast htokens hhead
    rw [List.filterMap_cons_some htoken]
    refine ⟨hkeptlast, ?_, ?_, ?_⟩
    . intro t ht
      rcases List.mem_cons.1 ht with rfl | ht
      . exact hscanned
      . exact htokens t ht
    . -- a text ends where a tag begins, and there no other text is found
      apply hseparated.cons
      intro histext
      obtain ⟨hne, hstart⟩ := start_of_text hstep (htext.1 histext) hnext
      exact hhead hne hstart
    . intro hne hstart t ht
      cases ht
      rw [← Bool.not_eq_true, htext]
      exact reading_ne_text hstep hne hstart

end Scanner

end Source

end Mustache
