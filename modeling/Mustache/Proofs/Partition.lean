import Mustache.Proofs.Origin

/-!
This module contains how a source is divided into pieces. The main statement is that the pieces of a source without a
fault make up the source, and that each of them is a text without a tag or a tag that ends as early as it can.
-/

namespace Mustache

namespace Delimiters

def opener (d : Delimiters) (triple : Bool) : List Char :=
  d.start.toList ++ if triple then ['\x7b'] else []

def closer (d : Delimiters) (triple : Bool) : List Char :=
  (if triple then ['\x7d'] else []) ++ d.stop.toList

/--
Markers that a change of the delimiters can announce: neither of them is empty or holds a blank or an equals sign.
-/
def IsAnnounced (d : Delimiters) : Prop :=
  ∀ marker ∈ [d.start.toList, d.stop.toList], marker ≠ [] ∧ ∀ c ∈ marker, Text.isBlank c = false ∧ c ≠ '='

theorem IsAnnounced.proper {d : Delimiters} (h : d.IsAnnounced) : d.isProper := by
  rw [Source.Scanner.proper_iff]
  exact ⟨(h d.start.toList (by simp)).1, (h d.stop.toList (by simp)).1⟩

end Delimiters

namespace Source

/--
The characters `span` are a tag around `inner`. It has three braces if there is one more behind the standard start
delimiter, and it ends where what stands behind its content occurs for the first time.
-/
structure TagSpan (d : Delimiters) (triple : Bool) (inner span : List Char) : Prop where
  span_eq : span = d.opener triple ++ (inner ++ d.closer triple)
  triple_iff : triple = true ↔ d.start = Delimiters.standard.start ∧ d.start.toList ++ ['\x7b'] <+: span
  first {before after : List Char} : inner ++ d.closer triple = before ++ (d.closer triple ++ after) → after = []

/--
What a tag around `inner` can be read as: a tag whose content is a part of `inner`, or a change of the delimiters.
-/
inductive TagReading (triple : Bool) (inner : List Char) : Reading → Prop where
  | tag {kind : TagKind} {content : List Char} (htriple : kind = .triple ↔ triple = true)
    (hcontent : content <:+: inner) (hequals : (Text.trim inner).head? = some '=' → triple = true) :
    TagReading triple inner (.tag kind content)
  | change {new : Delimiters} (htriple : triple = false) (hequals : (Text.trim inner).head? = some '=')
    (hproper : new.isProper) : TagReading triple inner (.change new)

theorem readChange?_announced {cs : List Char} {d : Delimiters} (h : readChange? cs = some d) : d.IsAnnounced := by
  unfold readChange? at h
  split at h
  . cases h
  next inner _ =>
    split at h
    next start stop hwords =>
      have hmarker (marker : List Char) (hmem : marker ∈ [start, stop]) (hequals : '=' ∉ marker) :
          marker ≠ [] ∧ ∀ c ∈ marker, Text.isBlank c = false ∧ c ≠ '=' := by
        obtain ⟨hne, hsolid⟩ := Text.mem_words (hwords ▸ hmem)
        exact ⟨hne, fun c hc => ⟨hsolid c hc, ne_of_mem_of_not_mem hc hequals⟩⟩
      split at h
      . cases h
      next hequals =>
        cases h
        simp only [Bool.or_eq_true, List.contains_iff_mem, not_or] at hequals
        simp only [Delimiters.IsAnnounced, String.toList_ofList, List.forall_mem_cons]
        exact ⟨hmarker start (by simp) hequals.1, hmarker stop (by simp) hequals.2, by simp⟩
    . cases h

theorem readChange?_proper {cs : List Char} {d : Delimiters} (h : readChange? cs = some d) : d.isProper :=
  (readChange?_announced h).proper

theorem readTag_reading {inner : List Char} {reading : Reading} (h : readTag inner = .ok reading) :
    TagReading false inner reading := by
  have htrim (c : Char) (rest : List Char) (hcs : Text.trim inner = c :: rest) : Text.trim rest <:+: inner := by
    have hrest : rest <:+: Text.trim inner := by
      rw [hcs]
      exact (List.suffix_cons c rest).isInfix
    exact ((Text.trim_infix rest).trans hrest).trans (Text.trim_infix inner)
  unfold readTag at h
  split at h
  iterate 5
    next hcs =>
      cases h
      exact .tag (by simp) (htrim _ _ hcs) (by simp [hcs])
  next hcs =>
    cases h
    refine .tag (by simp) ?_ (by simp [hcs])
    exact ((List.drop_suffix ..).trans (List.dropWhile_suffix ..)).isInfix
  next hcs =>
    split at h
    next new hnew =>
      cases h
      exact .change rfl (by rw [hcs]; rfl) (readChange?_proper hnew)
    . cases h
  next _ _ _ _ _ _ hequals =>
    cases h
    refine .tag (by simp) (Text.trim_infix inner) ?_
    intro hhead
    obtain ⟨rest, hrest⟩ := List.head?_eq_some_iff.1 hhead
    exact absurd hrest (hequals rest)

def delimitersBehind (d : Delimiters) (ps : List Piece) : Delimiters :=
  ps.foldl (fun d p => match p.reading with
    | .change new => new
    | .text | .tag .. => d) d

theorem delimitersBehind_append (d : Delimiters) (ps qs : List Piece) :
    delimitersBehind d (ps ++ qs) = delimitersBehind (delimitersBehind d ps) qs :=
  List.foldl_append

namespace Scanner

variable {d : Delimiters} {rest span : List Char} {reading : Reading}

theorem Written.tagSpan (h : Written d rest span reading) (hreading : reading ≠ .text) :
    ∃ triple inner, TagSpan d triple inner span ∧ TagReading triple inner reading := by
  cases h with
  | text => exact absurd rfl hreading
  | @tag inner reading hd hclears hsingle hread =>
    refine ⟨false, inner, ⟨by simp [Delimiters.opener, Delimiters.closer], ?_, ?_⟩, readTag_reading hread⟩
    . rw [List.prefix_append_right_inj]
      refine ⟨by simp, ?_⟩
      rintro ⟨hstart, rest, hrest⟩
      exact absurd (by rw [← hrest]; rfl) (hsingle hstart)
    . exact hclears.eq_nil_of_eq (proper_iff.1 hd).2
  | @triple inner hstart hclears =>
    refine ⟨true, inner, ⟨by simp [Delimiters.opener, Delimiters.closer], ?_, ?_⟩, ?_⟩
    . rw [List.prefix_append_right_inj]
      simp [hstart]
    . exact hclears.eq_nil_of_eq (by simp)
    . exact .tag (by simp) (Text.trim_infix inner) (by simp)

theorem rest_of_finished {s : Scanner} (h : s.step = .finished) : s.rest = [] := by
  have hrest := Text.breakOn_append s.delimiters.start.toList s.rest
  unfold step at h
  split at h
  next hbreak =>
    rw [hbreak] at hrest
    exact hrest.symm
  next found hfound hbreak =>
    simp only [readTag] at h
    split at h
    . cases h
    . split at h <;> cases h
  . cases h

theorem yields_of_pieces_eq {s : Scanner} {ps : List Piece} (h : s.pieces = (ps, none)) :
    ∃ last, Yields s ps last ∧ last.rest = [] := by
  have hsplit : s.pieces.1 = ps ++ [] := by rw [h, List.append_nil]
  obtain ⟨last, hyields, hlast⟩ := yields_of_pieces hsplit
  refine ⟨last, hyields, ?_⟩
  have hall := hyields.pieces_eq
  rw [h, hlast, Prod.mk.injEq] at hall
  cases hstep : last.step with
  | finished => exact rest_of_finished hstep
  | fault fault =>
    rw [pieces_of_fault hstep] at hall
    cases hall.2
  | piece piece next =>
    rw [pieces_of_piece hstep] at hlast
    cases hlast

theorem next_position {s next : Scanner} {piece : Piece} (hstep : s.step = .piece piece next) :
    piece.position = s.position ∧ next.position = s.position.advance piece.span := by
  have hemit := (written_of_step hstep).2.2
  simp only [emit, Step.piece.injEq] at hemit
  obtain ⟨hpiece, hnext⟩ := hemit
  exact ⟨by rw [← hpiece], by rw [← hnext]⟩

theorem span_ne_nil {s next : Scanner} {piece : Piece} (hstep : s.step = .piece piece next) : piece.span ≠ [] := by
  intro hnil
  have hshorter := step_shorter hstep
  rw [(written_of_step hstep).2.1, hnil] at hshorter
  exact Nat.lt_irrefl _ hshorter

theorem step_delimiters {s next : Scanner} {piece : Piece} (hstep : s.step = .piece piece next) :
    next.delimiters = delimitersBehind s.delimiters [piece] := by
  obtain ⟨hpiece, hnext⟩ := piece_delimiters hstep
  rw [hnext, Piece.delimitersAfter, hpiece]
  rfl

theorem Yields.behind {s last : Scanner} {ps : List Piece} (h : Yields s ps last) :
    last.delimiters = delimitersBehind s.delimiters ps ∧
      last.position = s.position.advance (ps.flatMap Piece.span) := by
  induction h with
  | refl => exact ⟨rfl, rfl⟩
  | @step s next last piece ps hstep _ ih =>
    obtain ⟨hdelimiters, hposition⟩ := ih
    rw [hdelimiters, step_delimiters hstep, ← delimitersBehind_append, hposition, (next_position hstep).2,
      ← Position.advance_append]
    exact ⟨rfl, rfl⟩

theorem step_proper {s next : Scanner} {piece : Piece} (hstep : s.step = .piece piece next)
    (h : s.delimiters.isProper) : next.delimiters.isProper := by
  rw [step_delimiters hstep]
  cases hreading : piece.reading with
  | change new =>
    have hwritten := (written_of_step hstep).1
    rw [hreading] at hwritten
    obtain ⟨triple, inner, -, hread⟩ := hwritten.tagSpan (by simp)
    cases hread with
    | change _ _ hproper => simpa [delimitersBehind, hreading] using hproper
  | _ => simpa [delimitersBehind, hreading] using h

theorem Yields.proper {s last : Scanner} {ps : List Piece} (h : Yields s ps last) (hs : s.delimiters.isProper) :
    last.delimiters.isProper := by
  induction h with
  | refl => exact hs
  | step hstep _ ih => exact ih (step_proper hstep hs)

end Scanner

theorem Scanner.text_alone {s next : Scanner} {piece : Piece} (hs : s.delimiters.isProper)
    (hstep : s.step = .piece piece next) (htext : piece.reading = .text) :
    ¬s.delimiters.start.toList <:+: piece.span ∧ ∀ p ∈ next.pieces.1.head?, p.reading ≠ .text := by
  have hstart := (proper_iff.1 hs).1
  obtain ⟨hwritten, -, -⟩ := written_of_step hstep
  rw [htext] at hwritten
  refine ⟨?_, ?_⟩
  . have hinfix := Text.breakOn_not_infix hstart (piece.span ++ next.rest)
    rwa [hwritten.cut.2] at hinfix
  . intro p hp
    obtain ⟨ps, hps⟩ := List.head?_eq_some_iff.1 hp
    obtain ⟨behind, hnext, -⟩ := step_of_pieces hps
    have hbegins := (start_of_text hstep htext (rest_ne_of_step hnext)).2
    have hkept : next.delimiters = s.delimiters := by
      rw [step_delimiters hstep]
      simp [delimitersBehind, htext]
    rw [← hkept] at hstart hbegins
    exact reading_ne_text hnext hstart hbegins

/--
What a piece in front of `after` is like. No tag begins in a text and no other text comes behind it, a tag has its
content between its markers, and a change of the delimiters is no token.
-/
def Piece.Fits (p : Piece) (after : List Piece) : Prop :=
  match p.reading with
  | .text =>
    p.token? = some (.text p.span) ∧ ¬p.delimiters.start.toList <:+: p.span ∧
      ∀ next ∈ after.head?, next.reading ≠ .text
  | .tag kind content =>
    p.token? = some (.tag ⟨kind, content, p.position, p.delimiters⟩) ∧
      ∃ triple inner, TagSpan p.delimiters triple inner p.span ∧ content <:+: inner ∧
        (kind = .triple ↔ triple = true) ∧ ((Text.trim inner).head? = some '=' → triple = true)
  | .change new =>
    p.token? = none ∧ new.isProper ∧
      ∃ inner, TagSpan p.delimiters false inner p.span ∧ (Text.trim inner).head? = some '='

theorem Scanner.fits_of_step {s next : Scanner} {p : Piece} (hs : s.delimiters.isProper)
    (hstep : s.step = .piece p next) : p.Fits next.pieces.1 := by
  obtain ⟨hwritten, -, -⟩ := written_of_step hstep
  have halone := text_alone hs hstep
  rw [← (piece_delimiters hstep).1] at hwritten halone
  unfold Piece.Fits
  cases hreading : p.reading with
  | text => exact ⟨by rw [Piece.token?, hreading], halone hreading⟩
  | tag kind content =>
    rw [hreading] at hwritten
    obtain ⟨triple, inner, hspan, hread⟩ := hwritten.tagSpan (by simp)
    cases hread with
    | tag htriple hcontent hequals =>
      exact ⟨by rw [Piece.token?, hreading], triple, inner, hspan, hcontent, htriple, hequals⟩
  | change new =>
    rw [hreading] at hwritten
    obtain ⟨triple, inner, hspan, hread⟩ := hwritten.tagSpan (by simp)
    cases hread with
    | change htriple hequals hproper =>
      subst htriple
      exact ⟨by rw [Piece.token?, hreading], hproper, inner, hspan, hequals⟩

/--
The pieces of a source without a fault make up the source, one behind the other. In each place the delimiters are the
ones that were changed to last.
-/
theorem pieces_partition {source : String} {d : Delimiters} (hd : d.isProper) {ps : List Piece}
    (h : (Scanner.start source.toList d).pieces = (ps, none)) :
    ps.flatMap Piece.span = source.toList ∧
    ∀ before p after, ps = before ++ p :: after →
      p.delimiters = delimitersBehind d before ∧ p.position = Position.first.advance (before.flatMap Piece.span) ∧
      p.span ≠ [] ∧ p.Fits after := by
  refine ⟨?_, ?_⟩
  . obtain ⟨last, hyields, hrest⟩ := Scanner.yields_of_pieces_eq h
    have hall := hyields.rest_eq
    rw [hrest, List.append_nil] at hall
    exact hall.symm
  . intro before p after hps
    obtain ⟨mid, hyields, hmid⟩ := Scanner.yields_of_pieces (by rw [h]; exact hps)
    obtain ⟨next, hstep, rfl⟩ := Scanner.step_of_pieces hmid
    obtain ⟨hdelimiters, hposition⟩ := hyields.behind
    refine ⟨?_, ?_, Scanner.span_ne_nil hstep, Scanner.fits_of_step (hyields.proper hd) hstep⟩
    . rw [(Scanner.piece_delimiters hstep).1]
      exact hdelimiters
    . rw [(Scanner.next_position hstep).1]
      exact hposition

theorem pieces_partition_change :
    let source := "a\x7b\x7b\x7bb\x7d\x7d\x7d\x7b\x7b=<< >=\x7d\x7d\x7b\x7b<<<c>"
    let second : Delimiters := ⟨"<<", ">"⟩
    let ps : List Piece := [
      ⟨['a'], ⟨1, 1⟩, .standard, .text⟩,
      ⟨"\x7b\x7b\x7bb\x7d\x7d\x7d".toList, ⟨1, 2⟩, .standard, .tag .triple ['b']⟩,
      ⟨"\x7b\x7b=<< >=\x7d\x7d".toList, ⟨1, 9⟩, .standard, .change second⟩,
      ⟨"\x7b\x7b".toList, ⟨1, 19⟩, second, .text⟩,
      ⟨"<<<c>".toList, ⟨1, 21⟩, second, .tag .escaped "<c".toList⟩]
    (Scanner.start source.toList .standard).pieces = (ps, none) ∧ ps.flatMap Piece.span = source.toList := by
  intro source second ps
  have hpieces : (Scanner.start source.toList .standard).pieces = (ps, none) := Scanner.pieces_of_within 6 (by decide)
  exact ⟨hpieces, (pieces_partition (by decide) hpieces).1⟩

end Source

end Mustache
