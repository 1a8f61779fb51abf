import Mustache.Proofs.RoundTrip

/-!
This module contains trees whose words stay clear of the delimiters around them. The main statement is that such a tree
is read back from its text, for all delimiters that are made of other characters than words.
-/

namespace Mustache

open Source

def isMarkerChar (c : Char) : Bool :=
  !(Text.isBlank c || isQuote c || c == '=' || c == '-' || c == '.' || Text.isAlphanumeric c)

/--
Delimiters that consist of such characters. The stop delimiter does not begin like a tag.
-/
structure Delimiters.Plain (d : Delimiters) : Prop where
  proper : d.isProper
  start : ∀ c ∈ d.start.toList, isMarkerChar c
  stop : ∀ c ∈ d.stop.toList, isMarkerChar c
  sigil : ∀ c ∈ d.stop.toList.head?, c ∉ sigils

def Delimiters.AbsentFrom (d : Delimiters) (text : String) : Prop :=
  ∀ c ∈ text.toList, c ∉ d.start.toList ∧ c ∉ d.stop.toList

def IsWord (text : String) : Prop :=
  text.toList ≠ [] ∧ ∀ c ∈ text.toList, Text.isBlank c = false ∧ isQuote c = false ∧ c ≠ '='

instance (d : Delimiters) (text : String) : Decidable (d.AbsentFrom text) :=
  inferInstanceAs (Decidable (∀ c ∈ text.toList, _))

instance (text : String) : Decidable (IsWord text) :=
  inferInstanceAs (Decidable (_ ∧ _))

def Param.Plain (d : Delimiters) : Param → Prop
  | .path text => d.AbsentFrom text ∧ IsWord text ∧ readParam text.toList = .path text
  | .str text => d.AbsentFrom text ∧ '\x22' ∉ text.toList
  | .int _ | .bool _ | .null => True
  | .float _ => False

structure Call.Plain (d : Delimiters) (call : Call) : Prop where
  name_absent : d.AbsentFrom call.name
  name_word : IsWord call.name
  name_sigil : ∀ c ∈ call.name.toList.head?, c ∉ sigils
  params : ∀ param ∈ call.params, param.Plain d
  keys_ne : ∀ key ∈ call.hash.keys, key.toList ≠ []
  keys : ∀ key ∈ call.hash.keys, ∀ c ∈ key.toList, isKeyChar c
  keys_absent : ∀ key ∈ call.hash.keys, d.AbsentFrom key
  values : ∀ entry ∈ call.hash, entry.2.Plain d

mutual

/--
A node whose words stay clear of the delimiters, at any depth. Nothing is asked of the inverse of a section.
-/
def Node.Plain (d : Delimiters) : Node → Prop
  | .literal text => text.toList ≠ [] ∧ d.AbsentFrom text
  | .comment text => d.AbsentFrom text
  | .variable call escape =>
    call.Plain d ∧ (escape = .html → call.params = [] → call.hash = ∅ → call.name ≠ "else")
  | .inclusion path => d.AbsentFrom path ∧ IsWord path
  | .block opening none _ => opening.call.Plain d
  | .block opening (some body) _ => opening.call.Plain d ∧ Fragment.Plain d body

def Fragment.Plain (d : Delimiters) : List Node → Prop
  | [] => True
  | node :: nodes =>
    node.Plain d ∧ (node.isLiteral → ∀ next ∈ nodes.head?, next.isLiteral = false) ∧ Fragment.Plain d nodes

end

variable {d : Delimiters}

namespace Delimiters

theorem Plain.not_mem (hd : d.Plain) {c : Char} (h : isMarkerChar c = false) :
    c ∉ d.start.toList ∧ c ∉ d.stop.toList := by
  constructor
  . intro hstart
    have := hd.start c hstart
    rw [h] at this
    cases this
  . intro hstop
    have := hd.stop c hstop
    rw [h] at this
    cases this

theorem Plain.absent (hd : d.Plain) {text : String} (h : ∀ c ∈ text.toList, isMarkerChar c = false) :
    d.AbsentFrom text :=
  fun c hc => hd.not_mem (h c hc)

theorem Plain.clears_start (hd : d.Plain) {text : String} (h : d.AbsentFrom text) :
    Text.Clears d.start.toList text.toList := by
  have hne := (Scanner.proper_iff.1 hd.proper).1
  obtain ⟨c, cs, hstart⟩ := List.exists_cons_of_ne_nil hne
  rw [hstart]
  apply Text.clears_of_not_mem
  intro hc
  exact (h c hc).1 (by simp [hstart])

theorem Plain.clears_stop (hd : d.Plain) {cs : List Char} (h : ∀ c ∈ cs, c ∈ sigils ∨ c ∉ d.stop.toList) :
    Text.Clears d.stop.toList cs := by
  have hne := (Scanner.proper_iff.1 hd.proper).2
  have hsigil := hd.sigil
  obtain ⟨c, stop, hstop⟩ := List.exists_cons_of_ne_nil hne
  rw [hstop] at h hsigil ⊢
  apply Text.clears_of_not_mem
  intro hc
  rcases h c hc with h | h
  . exact hsigil c rfl h
  . exact h List.mem_cons_self

theorem Plain.clears_brace (hd : d.Plain) {text : String} (h : d.AbsentFrom text) :
    Text.Clears ('\x7d' :: d.stop.toList) text.toList := by
  have hne := (Scanner.proper_iff.1 hd.proper).2
  obtain ⟨c, stop, hstop⟩ := List.exists_cons_of_ne_nil hne
  rw [hstop]
  apply Text.clears_of_second_not_mem
  intro hc
  exact (h c hc).2 (by simp [hstop])

theorem Plain.clears_sigil (hd : d.Plain) {c : Char} (hc : c ∈ sigils) {text : String} (h : d.AbsentFrom text) :
    Text.Clears d.stop.toList (c :: text.toList) := by
  apply hd.clears_stop
  intro x hx
  rcases List.mem_cons.1 hx with rfl | hx
  . exact .inl hc
  . exact .inr (h x hx).2

end Delimiters

theorem numeral_not_marker {c : Char} (h : c = '-' ∨ c.isDigit) : isMarkerChar c = false := by
  rcases h with rfl | h
  . decide
  . simp [isMarkerChar, Param.isAlphanumeric_digit h]

namespace Param

theorem Plain.absent_text (hd : d.Plain) {param : Param} (h : param.Plain d) : d.AbsentFrom param.text := by
  cases param with
  | path text => exact h.1
  | str text =>
    intro c hc
    simp only [toList_text_str, List.mem_append, List.mem_cons, List.not_mem_nil, or_false] at hc
    rcases hc with (rfl | hc) | rfl
    . exact hd.not_mem (by decide)
    . exact h.1 c hc
    . exact hd.not_mem (by decide)
  | int n => exact hd.absent fun c hc => numeral_not_marker (Number.mem_repr hc)
  | float x => cases h
  | bool b => cases b <;> exact hd.absent (by decide)
  | null => exact hd.absent (by decide)

theorem Plain.positional {param : Param} (h : param.Plain d) : param.Positional := by
  cases param with
  | path text =>
    obtain ⟨-, ⟨hne, hword⟩, hread⟩ := h
    refine ⟨⟨?_, hread⟩, hne, ?_⟩
    . exact isWhole_of_plain fun c hc => ⟨(hword c hc).1, (hword c hc).2.1⟩
    . exact hashPair?_of_not_mem fun hmem => (hword _ hmem).2.2 rfl
  | str text => exact positional_str h.2
  | int n => exact positional_int n
  | float x => cases h
  | bool b => exact positional_bool b
  | null => exact positional_null

end Param

namespace Call

variable {call : Call}

theorem Plain.legible (h : call.Plain d) : call.Legible where
  name_ne := h.name_word.1
  name_whole := isWhole_of_plain fun c hc => ⟨(h.name_word.2 c hc).1, (h.name_word.2 c hc).2.1⟩
  name_unquoted := unquote?_of_plain fun c hc => (h.name_word.2 c hc).2.1
  params := fun param hparam => (h.params param hparam).positional
  keys_ne := h.keys_ne
  keys := h.keys
  values := fun entry hentry => (h.values entry hentry).positional.toLegible

theorem Plain.absent_argument (hd : d.Plain) (h : call.Plain d) {word : List Char} (hword : word ∈ call.arguments) :
    ∀ c ∈ word, c ∉ d.start.toList ∧ c ∉ d.stop.toList := by
  intro c hc
  rcases List.mem_append.1 hword with hword | hword
  . obtain ⟨param, hparam, rfl⟩ := List.mem_map.1 hword
    exact (h.params param hparam).absent_text hd c hc
  . obtain ⟨⟨key, param⟩, hentry, rfl⟩ := List.mem_map.1 hword
    rcases List.mem_append.1 hc with hc | hc
    . exact h.keys_absent key (List.mem_map_of_mem hentry) c hc
    . rcases List.mem_cons.1 hc with rfl | hc
      . exact hd.not_mem (by decide)
      . exact (h.values _ hentry).absent_text hd c hc

theorem Plain.absent_text (hd : d.Plain) (h : call.Plain d) : d.AbsentFrom call.text := by
  intro c hc
  rw [toList_text] at hc
  rcases List.mem_append.1 hc with hc | hc
  . exact h.name_absent c hc
  . obtain ⟨word, hword, hc⟩ := List.mem_flatMap.1 hc
    rcases List.mem_cons.1 hc with rfl | hc
    . exact hd.not_mem (by decide)
    . exact h.absent_argument hd hword c hc

theorem Plain.fits (hd : d.Plain) (h : call.Plain d) {escape : Escape}
    (helse : escape = .html → call.params = [] → call.hash = ∅ → call.name ≠ "else") : call.Fits d escape := by
  have htext := h.absent_text hd
  have hampersand := hd.clears_sigil (c := '&') (by decide) htext
  have hhead := h.legible.head?_text
  cases escape with
  | html =>
    refine ⟨hd.clears_stop fun c hc => .inr (htext c hc).2, ?_, ?_, ?_⟩
    . intro hbad
      have hsolid : ' ' ∉ call.text.toList := by
        rw [hbad]
        decide
      obtain ⟨hparams, hhash, hname⟩ := text_eq_name hsolid
      exact helse rfl hparams hhash (hname ▸ hbad)
    . rw [hhead]
      exact h.name_sigil
    . intro hstart hbrace
      have := (htext _ (List.mem_of_mem_head? hbrace)).1
      rw [hstart] at this
      exact absurd this (by decide)
  | triple =>
    simp only [Fits]
    split
    . exact hd.clears_brace htext
    . exact hampersand
  | ampersand => exact hampersand

end Call

theorem Opening.marker_mem (o : Opening) : o.marker ∈ sigils := by
  unfold marker
  split <;> decide

theorem Call.Plain.opening_legible (hd : d.Plain) {o : Opening} (h : o.call.Plain d) : o.Legible d where
  call := h.legible
  opens := hd.clears_sigil o.marker_mem (h.absent_text hd)
  closes := hd.clears_sigil (by decide) h.name_absent

mutual

theorem Node.Plain.legible (hd : d.Plain) : ∀ {node : Node}, node.Plain d → node.Legible d
  | .literal _, h => ⟨h.1, hd.clears_start h.2⟩
  | .comment _, h => hd.clears_sigil (by decide) h
  | .variable _ _, h => ⟨h.1.legible, h.1.fits hd h.2⟩
  | .inclusion _, h => ⟨h.2.1, fun c hc => (h.2.2 c hc).1, hd.clears_sigil (by decide) h.1⟩
  | .block _ none _, h => h.opening_legible hd
  | .block _ (some _) _, h => ⟨h.1.opening_legible hd, Fragment.Plain.legible hd h.2⟩

theorem Fragment.Plain.legible (hd : d.Plain) : ∀ {nodes : List Node}, Fragment.Plain d nodes →
    Fragment.Legible d nodes
  | [], _ => trivial
  | _ :: _, h => ⟨Node.Plain.legible hd h.1, h.2.1, Fragment.Plain.legible hd h.2.2⟩

end

/--
A tree whose words stay clear of plain delimiters is read back from its text.
-/
theorem Fragment.parse_textWith_of_plain (d : Delimiters) (hd : d.Plain) (f : Fragment) (h : Fragment.Plain d f) :
    parse (Fragment.textWith d f) d = .ok (Fragment.normalized d f) :=
  (Fragment.Plain.legible hd h).parse_textWith hd.proper

theorem parse_textWith_of_plain_sections :
    let d : Delimiters := ⟨"<%", "%>"⟩
    let call : Call := { name := "x", params := [.str "b c", .int 3], hash := .ofList [("k", .path "p")] }
    let f : Fragment := [
      .literal "a",
      .block ⟨call, true, .standard⟩ (some [.variable { name := "y" } .triple, .comment " z "]) (some []),
      .block ⟨{ name := "else" }, false, .standard⟩ none none,
      .literal "b",
      .inclusion "c"
    ]
    d.Plain ∧ Fragment.Plain d f ∧ parse (Fragment.textWith d f) d = .ok (Fragment.normalized d f) := by
  intro d call f
  have hd : d.Plain := ⟨by decide, by decide, by decide, by decide⟩
  have hpath : readParam "p".toList = .path "p" := by rfl
  have hcall : call.Plain d := by
    refine ⟨by decide, by decide, by decide, ?_, by decide, by decide, by decide, ?_⟩
    . simp only [call, List.forall_mem_cons, List.not_mem_nil, false_imp_iff, implies_true, and_true, Param.Plain]
      decide
    . change ∀ entry ∈ [("k", Param.path "p")], entry.2.Plain d
      simp only [List.forall_mem_singleton, Param.Plain, hpath, and_true]
      decide
  have helse : Call.Plain d { name := "else" } :=
    ⟨by decide, by decide, by decide, by simp, by decide, by decide, by decide, by simp⟩
  have hvalue : Call.Plain d { name := "y" } :=
    ⟨by decide, by decide, by decide, by simp, by decide, by decide, by decide, by simp⟩
  have hf : Fragment.Plain d f := by
    simp only [f, Fragment.Plain, Node.Plain, hcall, helse, hvalue, true_and, and_true]
    decide
  exact ⟨hd, hf, Fragment.parse_textWith_of_plain d hd f hf⟩

end Mustache
