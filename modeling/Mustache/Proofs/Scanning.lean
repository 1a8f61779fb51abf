import Mustache.Proofs.Search
import Mustache.Proofs.Words
import Mustache.Source.Piece

/-!
This module contains what the pieces of a source look like: a step of the scanner finds a piece iff the source goes on
with the text of one.
-/

namespace Mustache.Source

namespace Scanner

/--
The characters `span` read as a piece of a source that goes on with `rest`.
-/
inductive Written (d : Delimiters) (rest : List Char) : List Char → Reading → Prop where
  | text {span : List Char} (hne : span ≠ [])
    (hcut : Text.breakOn d.start.toList (span ++ rest) = (span, rest)) : Written d rest span .text
  | tag {inner : List Char} {reading : Reading} (hd : d.isProper) (hclears : Text.Clears d.stop.toList inner)
    (hsingle : d.start = Delimiters.standard.start → (inner ++ d.stop.toList).head? ≠ some '\x7b')
    (hread : Source.readTag inner = .ok reading) :
    Written d rest (d.start.toList ++ (inner ++ d.stop.toList)) reading
  | triple {inner : List Char} (hstart : d.start = Delimiters.standard.start)
    (hclears : Text.Clears ('\x7d' :: d.stop.toList) inner) :
    Written d rest (d.start.toList ++ ('\x7b' :: inner ++ '\x7d' :: d.stop.toList))
      (.tag .triple (Text.trim inner))

inductive Broken (d : Delimiters) (fault : Fault) : List Char → Prop where
  | mk {inner more : List Char} (hd : d.isProper) (hclears : Text.Clears d.stop.toList inner)
    (hsingle : d.start = Delimiters.standard.start → (inner ++ d.stop.toList).head? ≠ some '\x7b')
    (hread : Source.readTag inner = .error fault) :
    Broken d fault (d.start.toList ++ (inner ++ (d.stop.toList ++ more)))

variable {d : Delimiters} {p : Position} {rest : List Char}

theorem proper_iff : d.isProper ↔ d.start.toList ≠ [] ∧ d.stop.toList ≠ [] := by
  simp [Delimiters.isProper]

theorem isTriple_append (cs : List Char) :
    isTriple d (d.start.toList ++ cs) = (d.start == Delimiters.standard.start && cs.head? == some '\x7b') := by
  simp [isTriple, ← String.length_toList]

theorem isTriple_eq_false_iff (hstop : d.stop.toList ≠ []) (inner rest : List Char) :
    isTriple d (d.start.toList ++ (inner ++ (d.stop.toList ++ rest))) = false ↔
      (d.start = Delimiters.standard.start → (inner ++ d.stop.toList).head? ≠ some '\x7b') := by
  rw [isTriple_append, ← List.append_assoc, List.head?_append, Option.or_of_isSome (by simp [hstop])]
  simp [Bool.and_eq_false_imp]

theorem step_of_start (hstart : d.start.toList ≠ []) (cs : List Char) :
    step ⟨d.start.toList ++ cs, p, d⟩ = readTag ⟨d.start.toList ++ cs, p, d⟩ (d.start.toList ++ cs) := by
  have hfound := Text.breakOn_of_starts hstart (List.prefix_append d.start.toList cs)
  unfold step
  rw [hfound]
  split
  next h =>
    rw [Prod.mk.injEq, List.append_eq_nil_iff] at h
    exact absurd h.2.1 hstart
  next h =>
    cases h
    rfl
  next hne h =>
    cases h
    exact absurd rfl hne

theorem readTag_closed {inner : List Char} (hstop : d.stop.toList ≠ []) (hclears : Text.Clears d.stop.toList inner)
    (hsingle : d.start = Delimiters.standard.start → (inner ++ d.stop.toList).head? ≠ some '\x7b')
    (s : Scanner) (hs : s.delimiters = d) :
    s.readTag (d.start.toList ++ (inner ++ (d.stop.toList ++ rest))) =
      match Source.readTag inner with
      | .error fault => .fault fault
      | .ok reading => s.emit (d.start.toList ++ (inner ++ d.stop.toList)) rest reading := by
  have htriple := (isTriple_eq_false_iff hstop inner rest).2 hsingle
  have hbreak := hclears.breakOn_append hstop rest
  rw [List.append_assoc] at hbreak
  simp only [readTag, hs, htriple, Bool.false_eq_true, ↓reduceIte, Nat.add_zero, List.nil_append,
    ← String.length_toList, List.drop_left, List.take_left, hbreak]
  split
  next h => simp_all
  next h =>
    cases h
    cases Source.readTag inner with
    | error fault => rfl
    | ok reading => rw [List.append_assoc, List.drop_left]

theorem readTag_single {inner : List Char} (hstop : d.stop.toList ≠ []) (hclears : Text.Clears d.stop.toList inner)
    (hsingle : d.start = Delimiters.standard.start → (inner ++ d.stop.toList).head? ≠ some '\x7b')
    (s : Scanner) (hs : s.delimiters = d) {reading : Reading} (hread : Source.readTag inner = .ok reading) :
    s.readTag (d.start.toList ++ (inner ++ (d.stop.toList ++ rest))) =
      s.emit (d.start.toList ++ (inner ++ d.stop.toList)) rest reading := by
  rw [readTag_closed hstop hclears hsingle s hs, hread]

theorem readTag_triple {inner : List Char} (hstart : d.start = Delimiters.standard.start)
    (hclears : Text.Clears ('\x7d' :: d.stop.toList) inner) (s : Scanner) (hs : s.delimiters = d) :
    s.readTag (d.start.toList ++ ('\x7b' :: (inner ++ '\x7d' :: (d.stop.toList ++ rest)))) =
      s.emit (d.start.toList ++ ('\x7b' :: (inner ++ '\x7d' :: d.stop.toList))) rest
        (.tag .triple (Text.trim inner)) := by
  have htriple :
      isTriple d (d.start.toList ++ ('\x7b' :: (inner ++ '\x7d' :: (d.stop.toList ++ rest)))) = true := by
    rw [isTriple_append, hstart]
    rfl
  have hbreak := hclears.breakOn_append (by simp) rest
  rw [List.append_assoc, List.cons_append] at hbreak
  simp only [readTag, hs, htriple, ↓reduceIte, ← String.length_toList, List.drop_length_add_append,
    List.take_length_add_append, List.drop_succ_cons, List.drop_zero, List.take_succ_cons, List.take_zero,
    List.cons_append, List.nil_append, hbreak]
  simp

theorem step_of_written (hd : d.isProper) {span : List Char} {reading : Reading}
    (h : Written d rest span reading) :
    step ⟨span ++ rest, p, d⟩ = emit ⟨span ++ rest, p, d⟩ span rest reading := by
  obtain ⟨hstart, hstop⟩ := proper_iff.1 hd
  cases h with
  | text hne hcut =>
    unfold step
    rw [hcut]
    cases span with
    | nil => exact absurd rfl hne
    | cons c span => rfl
  | tag _ hclears hsingle hread =>
    rw [List.append_assoc, step_of_start hstart, List.append_assoc]
    exact readTag_single hstop hclears hsingle _ rfl hread
  | triple hopen hclears =>
    rw [List.append_assoc, step_of_start hstart]
    simp only [List.cons_append, List.append_assoc]
    exact readTag_triple hopen hclears _ rfl

theorem readTag_cases {s : Scanner} {found : List Char} (hstart : s.delimiters.start.toList ≠ [])
    (hfound : s.delimiters.start.toList <+: found) :
    s.readTag found = .fault .unclosedTag ∨
      (∃ fault, Broken s.delimiters fault found ∧ s.readTag found = .fault fault) ∨
      ∃ span rest reading, Written s.delimiters rest span reading ∧ found = span ++ rest ∧
        s.readTag found = s.emit span rest reading := by
  obtain ⟨cs, rfl⟩ := hfound
  simp only [readTag]
  -- the two kinds of tags differ in where their content begins and in what closes them
  cases htriple : isTriple s.delimiters (s.delimiters.start.toList ++ cs) with
  | false =>
    simp only [Bool.false_eq_true, ↓reduceIte, Nat.add_zero, List.nil_append, ← String.length_toList,
      List.drop_left, List.take_left]
    split
    . exact .inl rfl
    next inner closed hclosed hbreak =>
      obtain ⟨hstop, hclears, rest, rfl, rfl⟩ := Text.breakOn_eq_found hbreak hclosed
      have hd := proper_iff.2 ⟨hstart, hstop⟩
      rw [isTriple_eq_false_iff hstop] at htriple
      cases hread : Source.readTag inner with
      | error fault => exact .inr (.inl ⟨fault, .mk hd hclears htriple hread, rfl⟩)
      | ok reading =>
        refine .inr (.inr ⟨_, rest, reading, .tag hd hclears htriple hread, by simp, ?_⟩)
        rw [List.append_assoc, List.drop_left]
  | true =>
    have hopen := isTriple_append (d := s.delimiters) cs
    rw [htriple, eq_comm, Bool.and_eq_true, beq_iff_eq, beq_iff_eq] at hopen
    obtain ⟨hstandard, hhead⟩ := hopen
    obtain ⟨cs, rfl⟩ := List.head?_eq_some_iff.1 hhead
    simp only [↓reduceIte, ← String.length_toList, List.drop_length_add_append,
      List.take_length_add_append, List.drop_succ_cons, List.drop_zero, List.take_succ_cons, List.take_zero,
      List.cons_append, List.nil_append]
    split
    . exact .inl rfl
    next inner closed hclosed hbreak =>
      obtain ⟨-, hclears, rest, rfl, rfl⟩ := Text.breakOn_eq_found hbreak hclosed
      refine .inr (.inr ⟨_, rest, _, .triple hstandard hclears, by simp, ?_⟩)
      simp

theorem readTag_eq_piece {s next : Scanner} {found : List Char} {piece : Piece}
    (hstart : s.delimiters.start.toList ≠ []) (hfound : s.delimiters.start.toList <+: found)
    (h : s.readTag found = .piece piece next) :
    Written s.delimiters next.rest piece.span piece.reading ∧ found = piece.span ++ next.rest ∧
      s.emit piece.span next.rest piece.reading = .piece piece next := by
  rcases readTag_cases hstart hfound with hread | ⟨fault, -, hread⟩ | ⟨span, rest, reading, hwritten, heq, hread⟩
  . rw [hread] at h
    cases h
  . rw [hread] at h
    cases h
  . rw [hread] at h
    cases h
    exact ⟨hwritten, heq, rfl⟩

theorem written_of_step {s next : Scanner} {piece : Piece} (h : s.step = .piece piece next) :
    Written s.delimiters next.rest piece.span piece.reading ∧ s.rest = piece.span ++ next.rest ∧
      s.emit piece.span next.rest piece.reading = .piece piece next := by
  unfold step at h
  split at h
  . cases h
  next found hfound hbreak =>
    obtain ⟨hstart, hprefix⟩ := @Text.breakOn_found s.delimiters.start.toList s.rest (by rwa [hbreak])
    have hrest := Text.breakOn_append s.delimiters.start.toList s.rest
    rw [hbreak] at hprefix hrest
    dsimp only at hrest
    rw [← hrest]
    exact readTag_eq_piece hstart hprefix h
  next span found _ hne hbreak =>
    have hrest := Text.breakOn_append s.delimiters.start.toList s.rest
    rw [hbreak] at hrest
    cases h
    refine ⟨.text hne ?_, hrest.symm, rfl⟩
    dsimp only at hrest ⊢
    rw [hrest, hbreak]

/--
Steps that find some pieces one after another.
-/
inductive Yields : Scanner → List Piece → Scanner → Prop where
  | refl (s : Scanner) : Yields s [] s
  | step {s next last : Scanner} {piece : Piece} {ps : List Piece} (hstep : s.step = .piece piece next)
    (hrest : Yields next ps last) : Yields s (piece :: ps) last

theorem Yields.append {s mid last : Scanner} {ps qs : List Piece} (h : Yields s ps mid)
    (hmore : Yields mid qs last) : Yields s (ps ++ qs) last := by
  induction h with
  | refl => exact hmore
  | step hstep _ ih => exact .step hstep (ih hmore)

theorem Yields.pieces_eq {s last : Scanner} {ps : List Piece} (h : Yields s ps last) :
    s.pieces = (ps ++ last.pieces.1, last.pieces.2) := by
  induction h with
  | refl => rfl
  | step hstep _ ih => rw [pieces_of_piece hstep, ih, List.cons_append]

theorem step_of_pieces {s : Scanner} {piece : Piece} {ps : List Piece} (h : s.pieces.1 = piece :: ps) :
    ∃ next, s.step = .piece piece next ∧ next.pieces.1 = ps := by
  cases hstep : s.step with
  | finished =>
    rw [pieces_of_finished hstep] at h
    cases h
  | fault fault =>
    rw [pieces_of_fault hstep] at h
    cases h
  | piece found next =>
    rw [pieces_of_piece hstep] at h
    cases h
    exact ⟨next, rfl, rfl⟩

theorem yields_of_pieces {s : Scanner} {ps qs : List Piece} (h : s.pieces.1 = ps ++ qs) :
    ∃ mid, Yields s ps mid ∧ mid.pieces.1 = qs := by
  induction ps generalizing s with
  | nil => exact ⟨s, .refl s, h⟩
  | cons piece ps ih =>
    obtain ⟨next, hstep, hnext⟩ := step_of_pieces h
    obtain ⟨mid, hyields, hmid⟩ := ih hnext
    exact ⟨mid, .step hstep hyields, hmid⟩

theorem yields_of_pieces_error {s : Scanner} {e : SyntaxError} (h : s.pieces.2 = some e) :
    ∃ last fault, Yields s s.pieces.1 last ∧ last.step = .fault fault ∧ e = .malformed last.position fault := by
  induction s using Scanner.pieces.induct with
  | case1 s hstep =>
    rw [pieces_of_finished hstep] at h
    cases h
  | case2 s fault hstep =>
    rw [pieces_of_fault hstep] at h ⊢
    cases h
    exact ⟨s, fault, .refl s, hstep, rfl⟩
  | case3 s piece next hstep _ _ _ _ ih =>
    rw [pieces_of_piece hstep] at h ⊢
    obtain ⟨last, fault, hyields, hfault, heq⟩ := ih h
    exact ⟨last, fault, .step hstep hyields, hfault, heq⟩

theorem rest_ne_of_step {s next : Scanner} {piece : Piece} (h : s.step = .piece piece next) : s.rest ≠ [] := by
  have hlt := step_shorter h
  intro hnil
  rw [hnil] at hlt
  simp at hlt

theorem yields_of_written (hd : d.isProper) {span : List Char} {kind : TagKind} {content : List Char}
    (h : Written d rest span (.tag kind content)) :
    Yields ⟨span ++ rest, p, d⟩ [⟨span, p, d, .tag kind content⟩] ⟨rest, p.advance span, d⟩ :=
  .step (step_of_written hd h) (.refl _)

/--
The pieces of a source, if there are fewer than `n`. It recurses on `n`, so that it can be computed in proofs.
-/
def piecesWithin : Nat → Scanner → Option (List Piece × Option SyntaxError)
  | 0, _ => none
  | n + 1, s =>
    match s.step with
    | .finished => some ([], none)
    | .fault fault => some ([], some (.malformed s.position fault))
    | .piece piece next => (piecesWithin n next).map fun (pieces, fault) => (piece :: pieces, fault)

theorem pieces_of_within {s : Scanner} {r : List Piece × Option SyntaxError} (n : Nat)
    (h : piecesWithin n s = some r) : s.pieces = r := by
  induction n generalizing s r with
  | zero => cases h
  | succ n ih =>
    unfold piecesWithin at h
    split at h
    next hstep =>
      cases h
      exact pieces_of_finished hstep
    next hstep =>
      cases h
      exact pieces_of_fault hstep
    next hstep =>
      obtain ⟨rest, hrest, rfl⟩ := Option.map_eq_some_iff.1 h
      rw [pieces_of_piece hstep, ih hrest]

theorem pieces_of_empty (p : Position) (d : Delimiters) : pieces ⟨[], p, d⟩ = ([], none) :=
  pieces_of_finished rfl

end Scanner

def sigils : List Char :=
  ['#', '^', '/', '>', '&', '!', '=']

def TagKind.sigil? : TagKind → Option Char
  | .opening => some '#'
  | .inverted => some '^'
  | .closing => some '/'
  | .inclusion => some '>'
  | .ampersand => some '&'
  | .comment | .escaped | .triple => none

theorem readTag_sigil {kind : TagKind} {c : Char} (hkind : kind.sigil? = some c) (content : List Char) :
    readTag (c :: content) = .ok (.tag kind (Text.trim content)) := by
  cases kind <;> cases hkind
  all_goals
    rw [readTag, Text.trim_cons (by decide)]
    change Except.ok (Reading.tag _ (Text.trim (Text.trimEnd content))) = _
    rw [Text.trim_trimEnd]

theorem readTag_comment (text : List Char) : readTag ('!' :: text) = .ok (.tag .comment text) := by
  rw [readTag, Text.trim_cons (by decide)]
  rfl

theorem readTag_escaped {inner : List Char} (hhead : ∀ c ∈ (Text.trim inner).head?, c ∉ sigils) :
    readTag inner = .ok (.tag .escaped (Text.trim inner)) := by
  unfold readTag
  split
  all_goals first
    | rfl
    | next htrim => exact absurd (hhead _ (by rw [htrim]; rfl)) (by decide)

theorem readTag_ne_text (inner : List Char) : readTag inner ≠ .ok .text := by
  intro h
  unfold readTag at h
  split at h
  all_goals try cases h
  split at h <;> cases h

theorem dropWhile_ne_of_mem {c : Char} {cs : List Char} (h : c ∈ cs) :
    ∃ before, cs = before ++ c :: (cs.dropWhile (· != c)).drop 1 := by
  induction cs with
  | nil => cases h
  | cons d cs ih =>
    by_cases hd : d = c
    . exact ⟨[], by simp [hd]⟩
    . obtain ⟨before, hbefore⟩ := ih ((List.mem_cons.1 h).resolve_left (Ne.symm hd))
      refine ⟨d :: before, ?_⟩
      rw [List.dropWhile_cons_of_pos (by simpa using hd), List.cons_append, ← hbefore]

theorem readTag_eq_tag {inner content : List Char} {kind : TagKind} (h : readTag inner = .ok (.tag kind content)) :
    kind ≠ .triple ∧ (kind = .comment → ∃ before, inner = before ++ '!' :: content) ∧
      (kind = .escaped → content = Text.trim inner ∧ ∀ c ∈ content.head?, c ∉ sigils) := by
  unfold readTag at h
  split at h
  iterate 5
    next =>
      cases h
      simp
  next tail htrim =>
    cases h
    have hmem : '!' ∈ inner := by
      apply (Text.trim_infix inner).subset
      rw [htrim]
      exact List.mem_cons_self
    exact ⟨by simp, fun _ => dropWhile_ne_of_mem hmem, by simp⟩
  next =>
    split at h <;> cases h
  next h₁ h₂ h₃ h₄ h₅ h₆ h₇ =>
    cases h
    refine ⟨by simp, by simp, fun _ => ⟨rfl, ?_⟩⟩
    intro c hc hsigil
    obtain ⟨tail, htail⟩ := List.head?_eq_some_iff.1 hc
    simp only [sigils, List.mem_cons, List.not_mem_nil, or_false] at hsigil
    rcases hsigil with rfl | rfl | rfl | rfl | rfl | rfl | rfl
    . exact h₁ tail htail
    . exact h₂ tail htail
    . exact h₃ tail htail
    . exact h₄ tail htail
    . exact h₅ tail htail
    . exact h₆ tail htail
    . exact h₇ tail htail

end Mustache.Source
