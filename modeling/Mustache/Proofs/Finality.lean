import Mustache.Proofs.Joint
import Mustache.Proofs.Offences

/-!
This module contains what more text at the end of a source changes. The main statement is that an error stays what it is
and where it is, other than one that says that a tag or a section is not closed yet.
-/

namespace Mustache

/--
An error that more text may mend: something has begun and has not ended yet.
-/
def SyntaxError.IsUnclosed : SyntaxError → Prop
  | .malformed _ .unclosedTag | .malformed _ (.unclosedSection _) => True
  | _ => False

namespace Source

namespace Scanner

variable {s : Scanner} {d : Delimiters} {fault : Fault} {rest : List Char}

theorem Broken.followed (h : Broken d fault rest) (t : List Char) : Broken d fault (rest ++ t) := by
  cases h with
  | mk hd hclears hsingle hread =>
    simp only [List.append_assoc]
    exact .mk hd hclears hsingle hread

theorem broken_of_step (h : s.step = .fault fault) (hne : fault ≠ .unclosedTag) :
    Broken s.delimiters fault s.rest := by
  obtain ⟨hstart, hprefix, hread⟩ := start_of_fault h
  rcases readTag_cases hstart hprefix with hcase | ⟨other, hbroken, hcase⟩ | ⟨span, more, reading, -, -, hcase⟩
  . rw [hcase] at hread
    cases hread
    exact absurd rfl hne
  . rw [hcase] at hread
    cases hread
    exact hbroken
  . rw [hcase] at hread
    cases hread

theorem step_of_broken {p : Position} (h : Broken d fault rest) : step ⟨rest, p, d⟩ = .fault fault := by
  cases h with
  | mk hd hclears hsingle hread =>
    obtain ⟨hstart, hstop⟩ := proper_iff.1 hd
    rw [step_of_start hstart, readTag_closed hstop hclears hsingle _ rfl, hread]

theorem fault_followed (h : s.step = .fault fault) (hne : fault ≠ .unclosedTag) (t : List Char) :
    (s.followed t).step = .fault fault :=
  step_of_broken ((broken_of_step h hne).followed t)

end Scanner

theorem Offence.followed {source here : Scanner} {fault : Fault} (h : Offence source here fault)
    (hd : source.delimiters.isProper) (hfinal : ¬(SyntaxError.malformed here.position fault).IsUnclosed)
    (t : List Char) : Offence (source.followed t) (here.followed t) fault := by
  cases h with
  | unread hyields hviable hfault =>
    have hne : fault ≠ .unclosedTag := by
      rintro rfl
      exact hfinal trivial
    have hrest : here.rest ≠ [] := by
      obtain ⟨hstart, hprefix, -⟩ := Scanner.start_of_fault hfault
      exact hprefix.ne_nil hstart
    exact .unread (hyields.followed hd (fun _ _ _ => hrest) t) hviable (Scanner.fault_followed hfault hne t)
  | @refused ps piece next tag _ hyields hviable hstep htag hrefused hfault =>
    have hjoint : piece.reading = .text → next.rest ≠ [] := by
      rw [(Piece.token?_eq_tag htag).1]
      rintro ⟨⟩
    exact .refused (hyields.followed hd (fun _ _ _ => Scanner.rest_ne_of_step hstep) t) hviable
      (Scanner.step_followed (hyields.proper hd) hstep hjoint t) htag hrefused hfault
  | unclosed => exact absurd trivial hfinal

section

variable {source : String} {d : Delimiters} {e : SyntaxError}

theorem parse_append_error (h : parse source d = .error e) (hfinal : ¬e.IsUnclosed) (t : String) :
    parse (source ++ t) d = .error e := by
  by_cases hd : d.isProper
  . obtain ⟨here, fault, hoffence, rfl⟩ := exists_offence hd h
    have hwhole : Offence (Scanner.start (source ++ t).toList d) (here.followed t.toList) fault := by
      rw [String.toList_append]
      exact hoffence.followed hd hfinal t.toList
    have hparse := hwhole.parse_eq hd
    exact hparse
  . rw [parse, if_neg hd] at h ⊢
    exact h

theorem precedes_end {p : Position} {fault : Fault} (hd : d.isProper)
    (h : parse source d = .error (.malformed p fault)) : p.Precedes (Position.first.advance source.toList) := by
  obtain ⟨here, other, hoffence, heq⟩ := exists_offence hd h
  cases heq
  obtain ⟨offset, hoffset, hposition, -⟩ := hoffence.place hd
  have hprecedes := precedes_placeAt hoffset (Nat.le_refl _)
  rwa [← hposition, placeAt, List.take_length] at hprecedes

end

end Source

open Source

/--
An error that is not about a tag or a section without an end stays the same error, at the same place, whatever comes
behind the source. It is the first one: in the text before its place nothing is refused for good.
-/
theorem parse_error_final {source : String} {d : Delimiters} {e : SyntaxError} (h : parse source d = .error e)
    (hfinal : ¬e.IsUnclosed) :
    (∀ t : String, parse (source ++ t) d = .error e) ∧
      ∃ p fault, e = .malformed p fault ∧
        (d.isProper → ∀ before after : String, source = before ++ after →
          ¬p.Precedes (Position.first.advance before.toList) →
          ∀ cause, parse before d = .error cause → cause.IsUnclosed) := by
  refine ⟨parse_append_error h hfinal, ?_⟩
  obtain ⟨p, fault, rfl⟩ := parse_placed h
  refine ⟨p, fault, rfl, ?_⟩
  intro hd before after hsource hplace cause hbefore
  by_contra hcause
  -- the error of the first part would be that of the whole
  have hwhole := parse_append_error hbefore hcause after
  rw [← hsource, h] at hwhole
  cases hwhole
  exact hplace (precedes_end hd hbefore)

theorem parse_error_final_closing :
    let before := "\x7b\x7b#a\x7d\x7d\n "
    let source := before ++ "\x7b\x7b/b\x7d\x7d"
    let e : SyntaxError := .malformed ⟨2, 2⟩ (.mismatchedClosing "a" "b")
    parse source = .error e ∧ ¬e.IsUnclosed ∧ parse (source ++ "\x7b\x7b/a\x7d\x7d\x7b\x7b") = .error e ∧
      ∀ cause, parse before = .error cause → cause.IsUnclosed := by
  intro before source e
  have hfinal : ¬e.IsUnclosed := by
    rintro ⟨⟩
  have hparse : parse source = .error e := by
    have hpieces : (Scanner.start source.toList .standard).pieces = ([
        ⟨"\x7b\x7b#a\x7d\x7d".toList, ⟨1, 1⟩, .standard, .tag .opening ['a']⟩,
        ⟨['\n', ' '], ⟨1, 7⟩, .standard, .text⟩,
        ⟨"\x7b\x7b/b\x7d\x7d".toList, ⟨2, 2⟩, .standard, .tag .closing ['b']⟩], none) :=
      Scanner.pieces_of_within 4 (by decide)
    rw [parse, if_pos (by decide), hpieces]
    rfl
  obtain ⟨hstays, p, fault, heq, hfirst⟩ := parse_error_final hparse hfinal
  injection heq with hposition _
  rw [← hposition] at hfirst
  exact ⟨hparse, hfinal, hstays _, hfirst (by decide) before _ rfl (by decide)⟩

end Mustache
