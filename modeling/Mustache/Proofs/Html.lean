import Mustache.Text.Html

/-!
This module contains texts that mean nothing in HTML but themselves. The main statement is that escaping leads to all of
these and to no other, and to each from one text only.
-/

namespace Mustache.Text

def markup : List Char :=
  ['<', '>', '\x22', '\x27', '\x60', '=']

def references : List String :=
  ["&amp;", "&lt;", "&gt;", "&quot;", "&#x27;", "&#x60;", "&#x3D;"]

/--
Each ampersand begins one of the references, and nothing else means something in HTML.
-/
structure Escaped (cs : List Char) : Prop where
  not_markup {c : Char} : c ∈ cs → c ∉ markup
  reference {before after : List Char} :
    cs = before ++ '&' :: after → ∃ r ∈ references, r.toList <+: '&' :: after

theorem escaped_nil : Escaped [] where
  not_markup h := nomatch h
  reference h := by simp at h

theorem Escaped.append {cs ds : List Char} (hc : Escaped cs) (hd : Escaped ds) : Escaped (cs ++ ds) where
  not_markup h := by
    rcases List.mem_append.1 h with h | h
    . exact hc.not_markup h
    . exact hd.not_markup h
  reference {before after} h := by
    rcases List.append_eq_append_iff.1 h with ⟨rest, -, hrest⟩ | ⟨rest, hrest, hafter⟩
    . exact hd.reference hrest
    . cases rest with
      | nil => exact hd.reference (show ds = [] ++ '&' :: after from hafter.symm)
      | cons c rest =>
        -- the ampersand is in the first part, and the reference ends there
        obtain ⟨rfl, rfl⟩ := List.cons_eq_cons.1 hafter
        obtain ⟨r, hr, hstarts⟩ := hc.reference hrest
        exact ⟨r, hr, hstarts.trans (by simp)⟩

theorem Escaped.of_append {cs ds : List Char} (h : Escaped (cs ++ ds)) : Escaped ds where
  not_markup hc := h.not_markup (List.mem_append_right _ hc)
  reference {before after} heq := by
    have hwhole : cs ++ ds = (cs ++ before) ++ '&' :: after := by rw [heq, List.append_assoc]
    exact h.reference hwhole

theorem escaped_of_plain {cs : List Char} (h : ∀ c ∈ cs, c ∉ '&' :: markup) : Escaped cs where
  not_markup hc := fun hmarkup => h _ hc (List.mem_cons_of_mem _ hmarkup)
  reference heq := by
    subst heq
    exact absurd List.mem_cons_self (h '&' (by simp))

theorem reference_eq {r : String} (h : r ∈ references) :
    ∃ rest, r.toList = '&' :: rest ∧ ∀ c ∈ rest, c ∉ '&' :: markup := by
  have hshape : ∀ r ∈ references,
      r.toList.head? = some '&' ∧ (r.toList.drop 1).all (fun c => !('&' :: markup).contains c) := by decide
  obtain ⟨hhead, hrest⟩ := hshape r h
  obtain ⟨rest, hr⟩ := List.head?_eq_some_iff.1 hhead
  refine ⟨rest, hr, ?_⟩
  rw [hr, List.drop_succ_cons, List.drop_zero] at hrest
  simpa using hrest

theorem escaped_of_reference {r : String} (h : r ∈ references) : Escaped r.toList where
  not_markup {c} hc := by
    obtain ⟨rest, hrest, hplain⟩ := reference_eq h
    rw [hrest] at hc
    rcases List.mem_cons.1 hc with rfl | hc
    . decide
    . exact (escaped_of_plain hplain).not_markup hc
  reference {before after} heq := by
    obtain ⟨rest, hrest, hplain⟩ := reference_eq h
    cases before with
    | nil => exact ⟨r, h, heq ▸ List.prefix_refl _⟩
    | cons first before =>
      -- there is only one ampersand in a reference
      obtain ⟨-, rfl⟩ := List.cons_eq_cons.1 (hrest.symm.trans heq)
      exact absurd List.mem_cons_self (hplain '&' (by simp))

theorem escapeChar_of_special {c : Char} (h : c ∈ '&' :: markup) : ∃ r ∈ references, escapeChar c = r.toList := by
  have hevery : ('&' :: markup).all (fun c => references.any fun r => escapeChar c == r.toList) := by decide
  obtain ⟨r, hr, heq⟩ := List.any_eq_true.1 (List.all_eq_true.1 hevery c h)
  exact ⟨r, hr, beq_iff_eq.1 heq⟩

theorem escapeChar_of_plain {c : Char} (h : c ∉ '&' :: markup) : escapeChar c = [c] := by
  unfold escapeChar
  split
  case h_8 => rfl
  all_goals exact absurd (by decide) h

theorem escapeChar_eq (c : Char) :
    (∃ r ∈ references, escapeChar c = r.toList) ∨ escapeChar c = [c] ∧ c ∉ '&' :: markup := by
  by_cases h : c ∈ '&' :: markup
  . exact .inl (escapeChar_of_special h)
  . exact .inr ⟨escapeChar_of_plain h, h⟩

theorem escaped_escapeChar (c : Char) : Escaped (escapeChar c) := by
  rcases escapeChar_eq c with ⟨r, hr, heq⟩ | ⟨heq, hplain⟩
  . rw [heq]
    exact escaped_of_reference hr
  . rw [heq]
    apply escaped_of_plain
    simpa using hplain

/--
A text that means nothing in HTML but itself.
-/
def IsEscaped (s : String) : Prop :=
  Escaped s.toList

theorem isEscaped_empty : IsEscaped "" :=
  escaped_nil

theorem IsEscaped.append {s t : String} (hs : IsEscaped s) (ht : IsEscaped t) : IsEscaped (s ++ t) := by
  unfold IsEscaped
  rw [String.toList_append]
  exact Escaped.append hs ht

theorem isEscaped_escapeHtml (s : String) : IsEscaped (escapeHtml s) := by
  unfold IsEscaped escapeHtml
  rw [String.toList_ofList]
  induction s.toList with
  | nil => exact escaped_nil
  | cons c cs ih =>
    rw [List.flatMap_cons]
    exact (escaped_escapeChar c).append ih

theorem exists_of_reference {r : String} (h : r ∈ references) : ∃ c ∈ '&' :: markup, escapeChar c = r.toList := by
  have hevery : references.all (fun r => ('&' :: markup).any fun c => escapeChar c == r.toList) := by decide
  obtain ⟨c, hc, heq⟩ := List.any_eq_true.1 (List.all_eq_true.1 hevery r h)
  exact ⟨c, hc, beq_iff_eq.1 heq⟩

theorem head?_escapeChar (c : Char) : (escapeChar c).head? = some (if c ∈ '&' :: markup then '&' else c) := by
  split
  next h =>
    obtain ⟨r, hr, heq⟩ := escapeChar_of_special h
    obtain ⟨rest, hrest, -⟩ := reference_eq hr
    rw [heq, hrest, List.head?_cons]
  next h => rw [escapeChar_of_plain h, List.head?_cons]

theorem escapeChar_ne_nil (c : Char) : escapeChar c ≠ [] := by
  intro h
  have hhead := head?_escapeChar c
  rw [h] at hhead
  cases hhead

theorem references_apart {c d : Char} (hc : c ∈ '&' :: markup) (hd : d ∈ '&' :: markup)
    (h : escapeChar c <+: escapeChar d) : c = d := by
  have hevery : ('&' :: markup).all fun c =>
      ('&' :: markup).all fun d => !(escapeChar c).isPrefixOf (escapeChar d) || c == d := by decide
  have hcd := List.all_eq_true.1 (List.all_eq_true.1 hevery c hc) d hd
  rw [List.isPrefixOf_iff_prefix.2 h] at hcd
  exact beq_iff_eq.1 hcd

theorem escapeChar_apart {c d : Char} (h : escapeChar c <+: escapeChar d) : c = d := by
  have hheads : (escapeChar c).head? = (escapeChar d).head? := by
    obtain ⟨rest, hrest⟩ := h
    rw [← hrest, List.head?_append, head?_escapeChar c, Option.some_or]
  rw [head?_escapeChar, head?_escapeChar, Option.some_inj] at hheads
  by_cases hc : c ∈ '&' :: markup
  . by_cases hd : d ∈ '&' :: markup
    . exact references_apart hc hd h
    . rw [if_pos hc, if_neg hd] at hheads
      exact absurd (hheads ▸ List.mem_cons_self) hd
  . by_cases hd : d ∈ '&' :: markup
    . rw [if_neg hc, if_pos hd] at hheads
      exact absurd (hheads ▸ List.mem_cons_self) hc
    . rwa [if_neg hc, if_neg hd] at hheads

theorem eq_of_escaped_eq {cs ds : List Char} (h : cs.flatMap escapeChar = ds.flatMap escapeChar) : cs = ds := by
  induction cs generalizing ds with
  | nil =>
    cases ds with
    | nil => rfl
    | cons d ds => simp [escapeChar_ne_nil] at h
  | cons c cs ih =>
    cases ds with
    | nil => simp [escapeChar_ne_nil] at h
    | cons d ds =>
      rw [List.flatMap_cons, List.flatMap_cons] at h
      have hc : escapeChar c <+: escapeChar d ++ ds.flatMap escapeChar := h ▸ List.prefix_append ..
      obtain rfl : c = d := by
        rcases List.prefix_or_prefix_of_prefix hc (List.prefix_append ..) with hshort | hlong
        . exact escapeChar_apart hshort
        . exact (escapeChar_apart hlong).symm
      rw [ih (List.append_cancel_left h)]

theorem Escaped.exists_first {c : Char} {cs : List Char} (h : Escaped (c :: cs)) :
    ∃ d rest, c :: cs = escapeChar d ++ rest := by
  by_cases hc : c = '&'
  . subst hc
    obtain ⟨r, hr, rest, hrest⟩ := h.reference (show _ = [] ++ '&' :: cs from rfl)
    obtain ⟨d, -, hd⟩ := exists_of_reference hr
    exact ⟨d, rest, by rw [hd, hrest]⟩
  . have hplain : c ∉ '&' :: markup := by simpa [hc] using h.not_markup List.mem_cons_self
    exact ⟨c, cs, by rw [escapeChar_of_plain hplain, List.singleton_append]⟩

theorem Escaped.exists_original {cs : List Char} (h : Escaped cs) : ∃ ds : List Char, ds.flatMap escapeChar = cs := by
  match cs with
  | [] => exact ⟨[], rfl⟩
  | c :: cs =>
    obtain ⟨d, rest, heq⟩ := h.exists_first
    have hshorter : rest.length < (c :: cs).length := by
      have hpos := List.length_pos_iff.2 (escapeChar_ne_nil d)
      rw [heq, List.length_append]
      omega
    rw [heq] at h
    obtain ⟨ds, hds⟩ := h.of_append.exists_original
    exact ⟨d :: ds, by rw [List.flatMap_cons, hds, heq]⟩
termination_by cs.length
decreasing_by exact hshorter

theorem escapeHtml_append (s t : String) : escapeHtml (s ++ t) = escapeHtml s ++ escapeHtml t := by
  unfold escapeHtml
  rw [String.toList_append, List.flatMap_append, String.ofList_append]

theorem eq_of_escapeHtml_eq {s t : String} (h : escapeHtml s = escapeHtml t) : s = t := by
  unfold escapeHtml at h
  rw [String.ofList_inj] at h
  exact String.toList_inj.1 (eq_of_escaped_eq h)

theorem IsEscaped.exists_original {t : String} (h : IsEscaped t) : ∃ s, escapeHtml s = t := by
  obtain ⟨cs, hcs⟩ := Escaped.exists_original h
  refine ⟨String.ofList cs, ?_⟩
  rw [escapeHtml, String.toList_ofList, hcs, String.ofList_toList]

/--
Texts are escaped part by part, what comes out means nothing in HTML but itself, and no two texts become the same. So
each text of that kind is the escaped form of one text and of no other, and a reference in a text stays apart from the
character that it stands for.
-/
theorem escapeHtml_recoverable (a b : String) :
    escapeHtml (a ++ b) = escapeHtml a ++ escapeHtml b ∧ IsEscaped (escapeHtml a) ∧
      (escapeHtml a = escapeHtml b ↔ a = b) ∧ ∀ t, IsEscaped t ↔ ∃ s, escapeHtml s = t := by
  refine ⟨escapeHtml_append a b, isEscaped_escapeHtml a, ⟨eq_of_escapeHtml_eq, congrArg escapeHtml⟩, ?_⟩
  intro t
  constructor
  . exact IsEscaped.exists_original
  . rintro ⟨s, rfl⟩
    exact isEscaped_escapeHtml s

example : escapeHtml "&lt; <" = "&amp;lt; &lt;" := by decide

end Mustache.Text
