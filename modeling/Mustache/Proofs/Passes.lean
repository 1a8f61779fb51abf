import Mathlib.Data.String.Basic
import Mustache.Proofs.Partition

/-!
This module contains the reading of a source pass by pass. The main statement is that every pass that finds something
goes on in the source, so that there are at most as many of them as the source has bytes, and that there are delimiters
to be found in every place.
-/

namespace Mustache

open Source

structure Reader where
  scanner : Scanner
  failed : Bool := false

namespace Reader

/--
What a pass comes to: nothing more, a token, a change of the delimiters, of which nothing is passed on, or a fault.
-/
inductive Pass where
  | finished
  | token (token : Token) (next : Reader)
  | change (next : Reader)
  | fault (e : SyntaxError) (next : Reader)

def start (source : String) (d : Delimiters) : Reader :=
  { scanner := Scanner.start source.toList d }

def pass (r : Reader) : Pass :=
  if r.failed then
    .finished
  else
    match r.scanner.step with
    | .finished => .finished
    | .fault fault => .fault (.malformed r.scanner.position fault) { r with failed := true }
    | .piece piece next =>
      match piece.token? with
      | some token => .token token { r with scanner := next }
      | none => .change { r with scanner := next }

def run : Nat → Reader → List (Except SyntaxError Token) × Reader
  | 0, r => ([], r)
  | n + 1, r =>
    match r.pass with
    | .finished => ([], r)
    | .token token next =>
      let (results, last) := run n next
      (.ok token :: results, last)
    | .change next => run n next
    | .fault e next =>
      let (results, last) := run n next
      (.error e :: results, last)

/--
The reader stands behind the first `offset` bytes of the source.
-/
def IsAt (source : String) (offset : Nat) (r : Reader) : Prop :=
  ∃ read, source.toList = read ++ r.scanner.rest ∧ String.utf8Len read = offset

end Reader

namespace Source.Scanner

variable {s next last : Scanner} {piece : Piece} {ps : List Piece}

theorem readTag_announced {inner : List Char} {new : Delimiters} (h : Source.readTag inner = .ok (.change new)) :
    new.IsAnnounced := by
  unfold Source.readTag at h
  split at h
  all_goals try cases h
  split at h
  next hnew =>
    cases h
    exact readChange?_announced hnew
  . cases h

theorem Written.announced {d new : Delimiters} {rest span : List Char} {reading : Reading}
    (h : Written d rest span reading) (hchange : reading = .change new) : new.IsAnnounced := by
  subst hchange
  cases h with
  | tag _ _ _ hread => exact readTag_announced hread

theorem delimiters_of_step (hstep : s.step = .piece piece next) :
    next.delimiters = s.delimiters ∨ next.delimiters.IsAnnounced := by
  obtain ⟨hpiece, hnext⟩ := piece_delimiters hstep
  rw [hnext, Piece.delimitersAfter, hpiece]
  cases hreading : piece.reading with
  | change new => exact .inr ((written_of_step hstep).1.announced hreading)
  | text => exact .inl rfl
  | tag => exact .inl rfl

theorem rest_ne_of_fault {fault : Fault} (h : s.step = .fault fault) : s.rest ≠ [] := by
  intro hrest
  rw [step, hrest] at h
  cases h

theorem Yields.length_le (h : Yields s ps last) : ps.length + last.rest.length ≤ s.rest.length := by
  induction h with
  | refl => simp
  | step hstep _ ih =>
    have := step_shorter hstep
    rw [List.length_cons]
    omega

end Source.Scanner

open Scanner

theorem length_le_utf8Len (cs : List Char) : cs.length ≤ String.utf8Len cs := by
  induction cs with
  | nil => simp
  | cons c cs ih =>
    have := c.utf8Size_pos
    rw [List.length_cons, String.utf8Len_cons]
    omega

theorem length_le_utf8ByteSize (text : String) : text.toList.length ≤ text.utf8ByteSize := by
  rw [← String.utf8Len_toList]
  exact length_le_utf8Len text.toList

namespace Reader

variable {r next : Reader} {source : String} {d : Delimiters}

theorem pass_cases (r : Reader) :
    r.pass = .finished ∧ (r.failed = true ∨ r.scanner.rest = []) ∨
      (∃ e, r.pass = .fault e { r with failed := true }) ∨
      ∃ piece next, r.scanner.step = .piece piece next ∧
        (r.pass = .change { r with scanner := next } ∨ ∃ token, r.pass = .token token { r with scanner := next }) := by
  unfold pass
  split
  next hfailed => exact .inl ⟨rfl, .inl hfailed⟩
  . split
    next hstep => exact .inl ⟨rfl, .inr (rest_of_finished hstep)⟩
    next fault hstep => exact .inr (.inl ⟨_, rfl⟩)
    next piece next hstep =>
      refine .inr (.inr ⟨piece, next, hstep, ?_⟩)
      cases piece.token? with
      | some token => exact .inr ⟨token, rfl⟩
      | none => exact .inl rfl

theorem run_of_finished (h : r.pass = .finished) (n : Nat) : run n r = ([], r) := by
  cases n with
  | zero => rfl
  | succ n => rw [run, h]

theorem run_of_failed (h : r.failed = true) (n : Nat) : run n r = ([], r) := by
  apply run_of_finished
  rw [pass, h]
  rfl

/--
What holds in every place of a source: the delimiters can be found, they are those from the start or were announced, and
what is left is an end of the source.
-/
structure Sound (source : String) (d : Delimiters) (r : Reader) : Prop where
  proper : r.scanner.delimiters.isProper
  delimiters : r.scanner.delimiters = d ∨ r.scanner.delimiters.IsAnnounced
  within : ∃ read, source.toList = read ++ r.scanner.rest

theorem sound_start (source : String) (hd : d.isProper) : (start source d).Sound source d :=
  ⟨hd, .inl rfl, [], rfl⟩

theorem Sound.step (h : r.Sound source d) {piece : Piece} {next : Scanner}
    (hstep : r.scanner.step = .piece piece next) :
    Sound source d { r with scanner := next } where
  proper := step_proper hstep h.proper
  delimiters := by
    rcases delimiters_of_step hstep with hkept | hannounced
    . exact hkept ▸ h.delimiters
    . exact .inr hannounced
  within := by
    obtain ⟨read, hread⟩ := h.within
    exact ⟨read ++ piece.span, by rw [hread, (written_of_step hstep).2.1, List.append_assoc]⟩

theorem Sound.run (h : r.Sound source d) (n : Nat) : (Reader.run n r).2.Sound source d := by
  induction n generalizing r with
  | zero => exact h
  | succ n ih =>
    rw [Reader.run]
    obtain ⟨hpass, -⟩ | ⟨e, hpass⟩ | ⟨piece, next, hstep, hpass | ⟨token, hpass⟩⟩ := r.pass_cases
    . rw [hpass]
      exact h
    . rw [hpass]
      exact ih ⟨h.proper, h.delimiters, h.within⟩
    . rw [hpass]
      exact ih (h.step hstep)
    . rw [hpass]
      exact ih (h.step hstep)

theorem IsAt.le {offset : Nat} (h : r.IsAt source offset) : offset ≤ source.utf8ByteSize := by
  obtain ⟨read, hread, rfl⟩ := h
  rw [← String.utf8Len_toList, hread, String.utf8Len_append]
  exact Nat.le_add_right ..

theorem IsAt.step {offset : Nat} (h : r.IsAt source offset) {piece : Piece} {next : Scanner}
    (hstep : r.scanner.step = .piece piece next) :
    ∃ further, offset < further ∧ further ≤ source.utf8ByteSize ∧ IsAt source further { r with scanner := next } := by
  obtain ⟨read, hread, rfl⟩ := h
  have hpos := List.length_pos_iff.2 (span_ne_nil hstep)
  have hbytes := length_le_utf8Len piece.span
  have hnext : IsAt source (String.utf8Len (read ++ piece.span)) { r with scanner := next } :=
    ⟨_, by rw [hread, (written_of_step hstep).2.1, List.append_assoc], rfl⟩
  refine ⟨_, ?_, hnext.le, hnext⟩
  rw [String.utf8Len_append]
  omega

theorem run_pieces (s : Scanner) {n : Nat} (hn : s.rest.length ≤ n) :
    (run n { scanner := s }).1 =
        (s.pieces.1.filterMap Piece.token?).map .ok ++ s.pieces.2.toList.map .error ∧
      (run n { scanner := s }).2.pass = .finished := by
  induction s using Scanner.pieces.induct generalizing n with
  | case1 s hstep =>
    have hpass : pass { scanner := s } = .finished := by simp [pass, hstep]
    rw [run_of_finished hpass, pieces_of_finished hstep]
    exact ⟨rfl, hpass⟩
  | case2 s fault hstep =>
    have hpass : pass { scanner := s } = .fault (.malformed s.position fault) { scanner := s, failed := true } := by
      simp [pass, hstep]
    have hpos := List.length_pos_iff.2 (rest_ne_of_fault hstep)
    obtain ⟨n, rfl⟩ := Nat.exists_eq_add_one.2 (Nat.lt_of_lt_of_le hpos hn)
    rw [run, hpass, pieces_of_fault hstep]
    dsimp only
    rw [run_of_failed rfl]
    exact ⟨rfl, rfl⟩
  | case3 s piece next hstep hshorter _ _ _ ih =>
    obtain ⟨n, rfl⟩ := Nat.exists_eq_add_one.2 (Nat.lt_of_lt_of_le (Nat.zero_lt_of_lt hshorter) hn)
    obtain ⟨hresults, hlast⟩ := @ih n (by omega)
    rw [run, pieces_of_piece hstep]
    cases htoken : piece.token? with
    | none =>
      have hpass : pass { scanner := s } = .change { scanner := next } := by simp [pass, hstep, htoken]
      rw [hpass, List.filterMap_cons_none htoken]
      exact ⟨hresults, hlast⟩
    | some token =>
      have hpass : pass { scanner := s } = .token token { scanner := next } := by simp [pass, hstep, htoken]
      rw [hpass, List.filterMap_cons_some htoken]
      exact ⟨congrArg (.ok token :: ·) hresults, hlast⟩

/--
A reader that begins with delimiters that can be found has them in every place. Each pass goes on in the source, until
all of it is read or a fault is met, behind which nothing more is passed on. So there are at most as many tokens and
changes as the source has bytes, and so many passes read all of them.
-/
theorem passes_end {source : String} {d : Delimiters} (hd : d.isProper) :
    (∀ n, ∃ offset,
      let r := (run n (start source d)).2
      r.IsAt source offset ∧ offset ≤ source.utf8ByteSize ∧
      r.scanner.delimiters.isProper ∧ (r.scanner.delimiters = d ∨ r.scanner.delimiters.IsAnnounced) ∧
      match r.pass with
      | .finished => r.failed = true ∨ offset = source.utf8ByteSize
      | .token _ next | .change next => ∃ further, offset < further ∧ further ≤ source.utf8ByteSize ∧
        next.IsAt source further
      | .fault _ next => ∀ m, run m next = ([], next)) ∧
    let (pieces, fault) := (Scanner.start source.toList d).pieces
    pieces.length ≤ source.utf8ByteSize ∧
      ∀ n, source.utf8ByteSize ≤ n →
        (run n (start source d)).1 = (pieces.filterMap Piece.token?).map .ok ++ fault.toList.map .error ∧
        (run n (start source d)).2.pass = .finished := by
  refine ⟨fun n => ?_, ?_, fun n hn => ?_⟩
  . have hsound := (sound_start source hd).run n
    obtain ⟨read, hread⟩ := hsound.within
    have hat : IsAt source (String.utf8Len read) (run n (start source d)).2 := ⟨read, hread, rfl⟩
    refine ⟨_, hat, hat.le, hsound.proper, hsound.delimiters, ?_⟩
    obtain ⟨hpass, hend⟩ | ⟨e, hpass⟩ | ⟨piece, next, hstep, hpass | ⟨token, hpass⟩⟩ :=
      (run n (start source d)).2.pass_cases
    . rw [hpass]
      apply hend.imp_right
      intro hrest
      rw [← String.utf8Len_toList, hread, hrest, List.append_nil]
    . rw [hpass]
      exact run_of_failed rfl
    . rw [hpass]
      exact hat.step hstep
    . rw [hpass]
      exact hat.step hstep
  . have hpieces : (Scanner.start source.toList d).pieces.1 = (Scanner.start source.toList d).pieces.1 ++ [] := by simp
    obtain ⟨last, hyields, -⟩ := yields_of_pieces hpieces
    have hlength : _ + last.rest.length ≤ source.toList.length := hyields.length_le
    have hbytes := length_le_utf8ByteSize source
    omega
  . exact run_pieces _ ((length_le_utf8ByteSize source).trans hn)

theorem passes_end_unclosed :
    let source := "é\x7b\x7b=<< >=\x7d\x7d<<a>x<<b"
    let second : Delimiters := ⟨"<<", ">"⟩
    let e : SyntaxError := .malformed ⟨1, 17⟩ .unclosedTag
    Delimiters.standard.isProper ∧ source.utf8ByteSize = 20 ∧
      (run 20 (start source .standard)).1 = [
        .ok (.text ['é']), .ok (.tag ⟨.escaped, ['a'], ⟨1, 12⟩, second⟩), .ok (.text ['x']), .error e] ∧
      (run 3 (start source .standard)).2.scanner.delimiters = second ∧ second.IsAnnounced := by
  intro source second e
  have hproper : Delimiters.standard.isProper := by decide
  have hbytes : source.utf8ByteSize = 20 := by rfl
  have hpieces : (Scanner.start source.toList .standard).pieces = ([
      ⟨['é'], ⟨1, 1⟩, .standard, .text⟩, ⟨"\x7b\x7b=<< >=\x7d\x7d".toList, ⟨1, 2⟩, .standard, .change second⟩,
      ⟨"<<a>".toList, ⟨1, 12⟩, second, .tag .escaped ['a']⟩, ⟨['x'], ⟨1, 16⟩, second, .text⟩], some e) :=
    Scanner.pieces_of_within 5 (by decide)
  obtain ⟨hplaces, hall⟩ := @passes_end source _ hproper
  rw [hpieces] at hall
  obtain ⟨-, -, -, -, hdelimiters, -⟩ := hplaces 3
  have hsecond : (run 3 (start source .standard)).2.scanner.delimiters = second := by decide
  rw [hsecond] at hdelimiters
  exact ⟨hproper, hbytes, (hall.2 20 hbytes.le).1, hsecond, hdelimiters.resolve_left (by decide)⟩

end Reader

end Mustache
