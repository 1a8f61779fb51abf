import Mustache.Proofs.Faults
import Mustache.Proofs.Partition
import Mustache.Proofs.Places

/-!
This module contains what a source is refused for. The main statement is that each error of a source is at the place of
exactly one of its characters, where a tag begins: the first one that cannot be read or that no source goes on with, or
the innermost one that opens a section without an end.
-/

namespace Mustache

namespace Source

open Builder

/--
Tokens that can be completed to ones that the grammar accepts.
-/
def Viable (tokens : List Token) : Prop :=
  ∃ more nodes, Derives (tokens ++ more) nodes

inductive Contents : List Token → Prop where
  | body {inside : List Token} {body : Fragment} (hbody : Derives inside body) : Contents inside
  | inverse {inside behind : List Token} {middle : Tag} {body inverse : Fragment} (hbody : Derives inside body)
    (hmiddle : middle.IsElse) (hinverse : Derives behind inverse) : Contents (inside ++ .tag middle :: behind)

/--
What is at fault in a source, and the place where it begins: a tag that cannot be read, a tag that is refused behind
what comes before it, or the tag of a section that is the innermost one without an end. What comes before such a tag
can always be completed.
-/
inductive Offence (source here : Scanner) : Fault → Prop where
  | unread {ps : List Piece} {fault : Fault} (hyields : Scanner.Yields source ps here)
    (hviable : Viable (ps.filterMap Piece.token?)) (hfault : here.step = .fault fault) : Offence source here fault
  | refused {ps : List Piece} {piece : Piece} {next : Scanner} {tag : Tag} {fault : Fault}
    (hyields : Scanner.Yields source ps here) (hviable : Viable (ps.filterMap Piece.token?))
    (hstep : here.step = .piece piece next) (htag : piece.token? = some (.tag tag))
    (hrefused : ¬Viable (ps.filterMap Piece.token? ++ [.tag tag]))
    (hfault : parseTokens (ps.filterMap Piece.token? ++ [.tag tag]) = .error (.malformed here.position fault)) :
    Offence source here fault
  | unclosed {ps qs : List Piece} {piece : Piece} {next : Scanner} {tag : Tag} {opening : Opening}
    (hyields : Scanner.Yields source ps here) (hviable : Viable (ps.filterMap Piece.token?))
    (hstep : here.step = .piece piece next) (htag : piece.token? = some (.tag tag)) (hopens : tag.Opens opening)
    (hbehind : next.pieces = (qs, none)) (hcontents : Contents (qs.filterMap Piece.token?)) :
    Offence source here (.unclosedSection opening.call.name)

section Viable

variable {tokens : List Token} {token : Token} {b : Builder} {e : SyntaxError}

theorem Builder.stack_push (b : Builder) (node : Node) : (b.push node).stack.length = b.stack.length := by
  unfold push
  split
  next hnil => rfl
  next hcons => rw [hcons, List.length_cons, List.length_cons]

theorem Builder.Holds.viable (h : Holds tokens b) : Viable tokens := by
  induction hdepth : b.stack.length generalizing tokens b with
  | zero =>
    cases h with
    | root hderives => exact ⟨[], _, by rwa [List.append_nil]⟩
    | body => cases hdepth
    | inverse => cases hdepth
  | succ depth ih =>
    obtain ⟨root, stack⟩ := b
    cases stack with
    | nil => cases hdepth
    | cons s stack =>
      obtain ⟨block, hblock⟩ := h.close_eq
      let last : Tag := ⟨.closing, s.block.name.toList, .first, .standard⟩
      have hlast : last.Closes s.block.name := ⟨rfl, rfl⟩
      have hclosed := h.step (.closes hlast hblock)
      obtain ⟨more, nodes, hderives⟩ := ih hclosed (by rw [stack_push]; exact Nat.succ_inj.1 hdepth)
      exact ⟨.tag last :: more, nodes, by simpa using hderives⟩

theorem viable_iff : Viable tokens ↔ ∃ b, tokens.foldlM add {} = .ok b := by
  constructor
  . rintro ⟨more, nodes, hderives⟩
    have hrun := hderives.run {}
    rw [run_append] at hrun
    cases hb : tokens.foldlM add {} with
    | error e =>
      rw [hb] at hrun
      cases hrun
    | ok b => exact ⟨b, rfl⟩
  . rintro ⟨b, hrun⟩
    exact (Holds.of_run hrun).viable

theorem parseTokens_of_run_error (h : tokens.foldlM add {} = .error e) (more : List Token)
    (fault : Option SyntaxError) : parseTokens (tokens ++ more) fault = .error e := by
  rw [parseTokens, run_append, h]
  rfl

theorem run_error_of_parseTokens (h : parseTokens tokens = .error e) (hviable : ¬Viable tokens) :
    tokens.foldlM add {} = .error e := by
  unfold parseTokens at h
  cases hb : tokens.foldlM add {} with
  | error e =>
    rw [hb] at h
    cases h
    rfl
  | ok b => exact absurd (viable_iff.2 ⟨b, hb⟩) hviable

theorem run_concat_error (hb : tokens.foldlM add {} = .ok b) (h : b.add token = .error e) :
    (tokens ++ [token]).foldlM add {} = .error e := by
  rw [run_append, hb, Except.bind, run_cons, h]
  rfl

end Viable

theorem Contents.run {tokens : List Token} (h : Contents tokens) (root : Fragment) (block : Block)
    (position : Position) (stack : List OpenSection) :
    ∃ body inverse, tokens.foldlM add ⟨root, ⟨block, [], none, position⟩ :: stack⟩ =
      .ok ⟨root, ⟨block, body, inverse, position⟩ :: stack⟩ := by
  cases h with
  | @body _ body hbody =>
    rw [hbody.run, pushAll_body]
    exact ⟨_, _, rfl⟩
  | @inverse inside behind middle body inverse hbody hmiddle hinverse =>
    rw [run_append, hbody.run, Except.bind, pushAll_body, run_cons, add_of_isElse hmiddle _ _ rfl, Except.bind,
      hinverse.run, pushAll_inverse]
    exact ⟨_, _, rfl⟩

theorem Builder.Holds.exists_opening {tokens : List Token} {root : Fragment} {s : OpenSection}
    {stack : List OpenSection} (h : Holds tokens ⟨root, s :: stack⟩) :
    ∃ before first opening inside, tokens = before ++ .tag first :: inside ∧ Viable before ∧ first.Opens opening ∧
      Contents inside ∧ s.position = first.position ∧ s.block.name = opening.call.name := by
  cases h with
  | body hbefore hfirst hbody =>
    exact ⟨_, _, _, _, rfl, hbefore.viable, hfirst, .body hbody, rfl, rfl⟩
  | inverse hbefore hfirst hbody hmiddle hinverse =>
    refine ⟨_, _, _, _, ?_, hbefore.viable, hfirst, .inverse hbody hmiddle hinverse, rfl, rfl⟩
    rw [List.append_assoc, List.cons_append]

namespace Scanner

variable {s here next : Scanner} {piece : Piece} {tag : Tag} {fault : Fault}

theorem yields_of_tag {before after : List Token}
    (h : s.pieces.1.filterMap Piece.token? = before ++ .tag tag :: after) :
    ∃ ps piece here next, Yields s ps here ∧ ps.filterMap Piece.token? = before ∧ here.step = .piece piece next ∧
      piece.token? = some (.tag tag) ∧ tag.position = here.position ∧
      next.pieces.1.filterMap Piece.token? = after := by
  obtain ⟨front, back, hpieces, hfront, hback⟩ := List.filterMap_eq_append_iff.1 h
  obtain ⟨skipped, piece, rest, rfl, hskipped, htag, hrest⟩ := List.filterMap_eq_cons_iff.1 hback
  rw [← List.append_assoc] at hpieces
  obtain ⟨here, hyields, hhere⟩ := yields_of_pieces hpieces
  obtain ⟨next, hstep, hnext⟩ := step_of_pieces hhere
  refine ⟨_, piece, here, next, hyields, ?_, hstep, htag, ?_, by rw [hnext, hrest]⟩
  . rw [List.filterMap_append, hfront, List.filterMap_eq_nil_iff.2 hskipped, List.append_nil]
  . rw [(Piece.token?_eq_tag htag).2.1, (next_position hstep).1]

theorem start_of_fault (h : s.step = .fault fault) :
    s.delimiters.start.toList ≠ [] ∧ s.delimiters.start.toList <+: s.rest ∧ s.readTag s.rest = .fault fault := by
  unfold step at h
  split at h
  . cases h
  next found hfound hbreak =>
    obtain ⟨hne, hstart⟩ := @Text.breakOn_found s.delimiters.start.toList s.rest (by rwa [hbreak])
    have hrest := Text.breakOn_append s.delimiters.start.toList s.rest
    rw [hbreak] at hstart hrest
    rw [List.nil_append] at hrest
    rw [← hrest]
    exact ⟨hne, hstart, h⟩
  . cases h

theorem start_of_tag (hstep : s.step = .piece piece next) (htag : piece.token? = some (.tag tag)) :
    s.delimiters.start.toList <+: s.rest := by
  obtain ⟨hwritten, hrest, -⟩ := written_of_step hstep
  rw [(Piece.token?_eq_tag htag).1] at hwritten
  obtain ⟨triple, inner, hspan, -⟩ := hwritten.tagSpan (by simp)
  rw [hrest, hspan.span_eq, Delimiters.opener]
  simp only [List.append_assoc]
  exact List.prefix_append ..

theorem Yields.place {cs : List Char} {d : Delimiters} {ps : List Piece} (h : Yields (start cs d) ps here) :
    ∃ offset ≤ cs.length, here.position = placeAt cs offset ∧ here.rest = cs.drop offset := by
  have hrest : cs = ps.flatMap Piece.span ++ here.rest := h.rest_eq
  refine ⟨(ps.flatMap Piece.span).length, ?_, ?_, ?_⟩
  . rw [hrest, List.length_append]
    exact Nat.le_add_right ..
  . rw [hrest, placeAt_append]
    exact h.behind.2
  . rw [hrest, List.drop_left]

end Scanner

section

variable {s : Scanner} {b : Builder} {e : SyntaxError}

theorem exists_refused (h : (s.pieces.1.filterMap Piece.token?).foldlM add {} = .error e) :
    ∃ here fault, Offence s here fault ∧ e = .malformed here.position fault := by
  obtain ⟨done, token, more, mid, htokens, hdone, hadd⟩ := run_eq_error h
  obtain ⟨tag, rfl, fault, rfl⟩ := (Holds.of_run hdone).add_at hadd
  obtain ⟨ps, piece, here, next, hyields, rfl, hstep, htag, hposition, -⟩ := Scanner.yields_of_tag htokens
  have hrun := run_concat_error hdone hadd
  have hrefused : ¬Viable (ps.filterMap Piece.token? ++ [.tag tag]) := by
    rw [viable_iff, hrun]
    rintro ⟨b, ⟨⟩⟩
  have hfault := parseTokens_of_run_error hrun [] none
  rw [List.append_nil, hposition] at hfault
  rw [hposition]
  exact ⟨here, fault, .refused hyields (viable_iff.2 ⟨mid, hdone⟩) hstep htag hrefused hfault, rfl⟩

theorem exists_unread (hb : (s.pieces.1.filterMap Piece.token?).foldlM add {} = .ok b) (hend : s.pieces.2 = some e) :
    ∃ here fault, Offence s here fault ∧ e = .malformed here.position fault := by
  obtain ⟨here, fault, hyields, hfault, rfl⟩ := Scanner.yields_of_pieces_error hend
  exact ⟨here, fault, .unread hyields (viable_iff.2 ⟨b, hb⟩) hfault, rfl⟩

theorem exists_unclosed (hb : (s.pieces.1.filterMap Piece.token?).foldlM add {} = .ok b) (hend : s.pieces.2 = none)
    (h : b.finish = .error e) : ∃ here fault, Offence s here fault ∧ e = .malformed here.position fault := by
  obtain ⟨root, stack⟩ := b
  cases stack with
  | nil => cases h
  | cons top stack =>
    cases h
    obtain ⟨before, first, opening, inside, htokens, hbefore, hopens, hcontents, hposition, hname⟩ :=
      (Holds.of_run hb).exists_opening
    obtain ⟨ps, piece, here, next, hyields, rfl, hstep, htag, hplace, rfl⟩ := Scanner.yields_of_tag htokens
    have hnone : next.pieces.2 = none := by
      rw [hyields.pieces_eq, Scanner.pieces_of_piece hstep] at hend
      exact hend
    rw [hposition, hplace, hname]
    exact ⟨here, _, .unclosed hyields hbefore hstep htag hopens (Prod.ext rfl hnone) hcontents, rfl⟩

end

section

variable {source : String} {d : Delimiters} {e : SyntaxError} {here : Scanner} {fault : Fault}

theorem parse_eq (source : String) (hd : d.isProper) :
    parse source d = parseTokens ((Scanner.start source.toList d).pieces.1.filterMap Piece.token?)
      (Scanner.start source.toList d).pieces.2 := by
  rw [parse, if_pos hd]

theorem exists_offence (hd : d.isProper) (h : parse source d = .error e) :
    ∃ here fault, Offence (Scanner.start source.toList d) here fault ∧ e = .malformed here.position fault := by
  rw [parse_eq source hd, parseTokens] at h
  cases hb : ((Scanner.start source.toList d).pieces.1.filterMap Piece.token?).foldlM add {} with
  | error cause =>
    rw [hb] at h
    cases h
    exact exists_refused hb
  | ok b =>
    rw [hb] at h
    cases hend : (Scanner.start source.toList d).pieces.2 with
    | some cause =>
      rw [hend] at h
      cases h
      exact exists_unread hb hend
    | none =>
      rw [hend] at h
      exact exists_unclosed hb hend h

theorem Offence.parse_eq (hd : d.isProper) (h : Offence (Scanner.start source.toList d) here fault) :
    parse source d = .error (.malformed here.position fault) := by
  rw [Source.parse_eq source hd]
  cases h with
  | unread hyields hviable hfault =>
    obtain ⟨b, hb⟩ := viable_iff.1 hviable
    rw [hyields.pieces_eq, Scanner.pieces_of_fault hfault, List.append_nil, parseTokens, hb]
    rfl
  | refused hyields hviable hstep htag hrefused hfault =>
    have hrun := run_error_of_parseTokens hfault hrefused
    rw [hyields.pieces_eq, Scanner.pieces_of_piece hstep, List.filterMap_append, List.filterMap_cons_some htag,
      ← List.singleton_append, ← List.append_assoc]
    exact parseTokens_of_run_error hrun ..
  | @unclosed ps qs piece next tag opening hyields hviable hstep htag hopens hbehind hcontents =>
    obtain ⟨b, hb⟩ := viable_iff.1 hviable
    obtain ⟨body, inverse, hrun⟩ := hcontents.run b.root { opening } tag.position b.stack
    have hposition : tag.position = here.position := by
      rw [(Piece.token?_eq_tag htag).2.1, (Scanner.next_position hstep).1]
    rw [hyields.pieces_eq, Scanner.pieces_of_piece hstep, hbehind, List.filterMap_append,
      List.filterMap_cons_some htag, parseTokens, run_append, hb, Except.bind, run_cons, add_of_opens hopens,
      Except.bind, hrun, ← hposition]
    rfl

/--
A source is refused iff there is an offence in it.
-/
theorem parse_eq_error_iff (source : String) (hd : d.isProper) :
    parse source d = .error e ↔
      ∃ here fault, Offence (Scanner.start source.toList d) here fault ∧ e = .malformed here.position fault := by
  refine ⟨exists_offence hd, ?_⟩
  rintro ⟨here, fault, hoffence, rfl⟩
  exact hoffence.parse_eq hd

theorem Offence.yields {source : Scanner} (h : Offence source here fault) :
    ∃ ps, Scanner.Yields source ps here ∧ here.delimiters.start.toList <+: here.rest := by
  cases h with
  | unread hyields _ hfault => exact ⟨_, hyields, (Scanner.start_of_fault hfault).2.1⟩
  | refused hyields _ hstep htag => exact ⟨_, hyields, Scanner.start_of_tag hstep htag⟩
  | unclosed hyields _ hstep htag => exact ⟨_, hyields, Scanner.start_of_tag hstep htag⟩

theorem Offence.place (hd : d.isProper) (h : Offence (Scanner.start source.toList d) here fault) :
    ∃ offset < source.toList.length, here.position = placeAt source.toList offset ∧
      here.rest = source.toList.drop offset ∧ here.delimiters.start.toList <+: here.rest := by
  obtain ⟨ps, hyields, hstart⟩ := h.yields
  obtain ⟨offset, -, hposition, hrest⟩ := hyields.place
  refine ⟨offset, ?_, hposition, hrest, hstart⟩
  have hne := (Scanner.proper_iff.1 (hyields.proper hd)).1
  rw [hrest] at hstart
  by_contra hlast
  rw [List.drop_eq_nil_of_le (Nat.le_of_not_lt hlast), List.prefix_nil] at hstart
  exact hne hstart

end

end Source

open Source

/--
The places of a text are counted by its line breaks, and they come in the order of its characters. Each error of a
source is at the place of exactly one of its characters, and there a tag begins, with the delimiters that are in force,
that is at fault.
-/
theorem parse_error_place :
    (∀ (cs : List Char) (offset : Nat), placeAt cs offset =
      ⟨(cs.take offset).count '\n' + 1, ((cs.take offset).reverse.takeWhile (· ≠ '\n')).length + 1⟩) ∧
    (∀ (cs : List Char) (i j : Nat), i < j → j ≤ cs.length → (placeAt cs i).Precedes (placeAt cs j)) ∧
    ∀ (source : String) (d : Delimiters) (e : SyntaxError), d.isProper → parse source d = .error e →
      ∃ offset here fault, e = .malformed here.position fault ∧ offset < source.toList.length ∧
        (∀ i ≤ source.toList.length, placeAt source.toList i = here.position ↔ i = offset) ∧
        here.rest = source.toList.drop offset ∧ here.delimiters.start.toList <+: here.rest ∧
        Offence (Scanner.start source.toList d) here fault := by
  refine ⟨fun cs offset => Position.advance_first _, fun cs i j => precedes_placeAt, ?_⟩
  intro source d e hd h
  obtain ⟨here, fault, hoffence, rfl⟩ := exists_offence hd h
  obtain ⟨offset, hoffset, hposition, hrest, hstart⟩ := hoffence.place hd
  refine ⟨offset, here, fault, rfl, hoffset, ?_, hrest, hstart, hoffence⟩
  intro i hi
  rw [hposition]
  exact placeAt_inj hi (Nat.le_of_lt hoffset)

theorem parse_error_place_inner :
    let source := "é\n\x7b\x7b=<% %>=\x7d\x7d→<%#a%><%#b%>"
    (placeAt source.toList 1).Precedes (placeAt source.toList 2) ∧
      parse source = .error (.malformed ⟨2, 19⟩ (.unclosedSection "b")) ∧
      ∃ here, Offence (Scanner.start source.toList .standard) here (.unclosedSection "b") ∧
        here.rest = "<%#b%>".toList ∧ here.delimiters.start.toList <+: here.rest := by
  intro source
  have hparse : parse source = .error (.malformed ⟨2, 19⟩ (.unclosedSection "b")) := by
    have hpieces : (Scanner.start source.toList .standard).pieces = ([
        ⟨"é\n".toList, ⟨1, 1⟩, .standard, .text⟩,
        ⟨"\x7b\x7b=<% %>=\x7d\x7d".toList, ⟨2, 1⟩, .standard, .change ⟨"<%", "%>"⟩⟩,
        ⟨['→'], ⟨2, 12⟩, ⟨"<%", "%>"⟩, .text⟩,
        ⟨"<%#a%>".toList, ⟨2, 13⟩, ⟨"<%", "%>"⟩, .tag .opening ['a']⟩,
        ⟨"<%#b%>".toList, ⟨2, 19⟩, ⟨"<%", "%>"⟩, .tag .opening ['b']⟩], none) :=
      Scanner.pieces_of_within 6 (by decide)
    rw [parse, if_pos (by decide), hpieces]
    rfl
  obtain ⟨offset, here, fault, heq, -, hunique, hrest, hstart, hoffence⟩ :=
    parse_error_place.2.2 source .standard _ (by decide) hparse
  injection heq with hposition hfault
  rw [← hposition] at hunique
  rw [← hfault] at hoffence
  rw [← (hunique 20 (by decide)).1 (by decide)] at hrest
  exact ⟨parse_error_place.2.1 _ 1 2 (by decide) (by decide), hparse, here, hoffence, hrest.trans (by decide), hstart⟩

end Mustache
