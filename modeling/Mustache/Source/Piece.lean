import Mustache.Tree.Basic
import Mustache.Source.SyntaxError
import Mustache.Text.Blank
import Mustache.Text.Search

/-!
This module contains the pieces of a source: texts, tags and changes of the delimiters. The main statement is
that each piece leaves less to scan, so scanning ends for every source and all delimiters.
-/

namespace Mustache.Source

inductive TagKind where
  | opening
  | inverted
  | closing
  | inclusion
  | comment
  | escaped
  | triple
  | ampersand
deriving DecidableEq, Repr

structure Tag where
  kind : TagKind
  content : List Char
  position : Position
  delimiters : Delimiters
deriving DecidableEq, Repr

inductive Token where
  | text (characters : List Char)
  | tag (tag : Tag)
deriving DecidableEq, Repr

inductive Reading where
  | text
  | tag (kind : TagKind) (content : List Char)
  | change (delimiters : Delimiters)
deriving DecidableEq, Repr

/--
A piece of a source: its characters, the place of the first of them, the delimiters in force there, and what it
says.
-/
structure Piece where
  span : List Char
  position : Position
  delimiters : Delimiters
  reading : Reading
deriving DecidableEq, Repr

namespace Piece

def token? (p : Piece) : Option Token :=
  match p.reading with
  | .text => some (.text p.span)
  | .tag kind content => some (.tag ⟨kind, content, p.position, p.delimiters⟩)
  | .change _ => none

def delimitersAfter (p : Piece) : Delimiters :=
  match p.reading with
  | .change d => d
  | .text | .tag .. => p.delimiters

end Piece

def readChange? (cs : List Char) : Option Delimiters :=
  match ['='].isSuffixOf? cs with
  | none => none
  | some inner =>
    match Text.words inner with
    | [start, stop] =>
      if start.contains '=' || stop.contains '=' then none
      else some ⟨String.ofList start, String.ofList stop⟩
    | _ => none

/--
Reads what is written between the markers of a tag. Blanks around it and behind the character for its kind do not
count, other than in a comment.
-/
def readTag (inner : List Char) : Except Fault Reading :=
  match Text.trim inner with
  | '#' :: rest => return .tag .opening (Text.trim rest)
  | '^' :: rest => return .tag .inverted (Text.trim rest)
  | '/' :: rest => return .tag .closing (Text.trim rest)
  | '>' :: rest => return .tag .inclusion (Text.trim rest)
  | '&' :: rest => return .tag .ampersand (Text.trim rest)
  | '!' :: _ => return .tag .comment ((inner.dropWhile (· != '!')).drop 1)
  | '=' :: rest =>
    match readChange? rest with
    | some d => return .change d
    | none => throw .invalidDelimiterChange
  | trimmed => return .tag .escaped trimmed

/--
A place in a source: the characters that are left, and the delimiters in force.
-/
structure Scanner where
  rest : List Char
  position : Position
  delimiters : Delimiters
deriving DecidableEq, Repr

inductive Step where
  | finished
  | fault (fault : Fault)
  | piece (piece : Piece) (next : Scanner)
deriving DecidableEq, Repr

namespace Scanner

def start (source : List Char) (d : Delimiters) : Scanner :=
  ⟨source, .first, d⟩

def emit (s : Scanner) (span rest : List Char) (reading : Reading) : Step :=
  let piece : Piece := ⟨span, s.position, s.delimiters, reading⟩
  .piece piece ⟨rest, s.position.advance span, piece.delimitersAfter⟩

def isTriple (d : Delimiters) (found : List Char) : Bool :=
  d.start == Delimiters.standard.start && (found.drop d.start.length).head? == some '\x7b'

/--
Reads the tag at the start of `found`. It ends with the first stop delimiter, and with a brace in front of that if
it started with three.
-/
def readTag (s : Scanner) (found : List Char) : Step :=
  let triple := isTriple s.delimiters found
  let width := s.delimiters.start.length + if triple then 1 else 0
  let closer := (if triple then ['\x7d'] else []) ++ s.delimiters.stop.toList
  match Text.breakOn closer (found.drop width) with
  | (_, []) => .fault .unclosedTag
  | (inner, closed) =>
    match if triple then .ok (.tag .triple (Text.trim inner)) else Source.readTag inner with
    | .error fault => .fault fault
    | .ok reading =>
      s.emit (found.take width ++ inner ++ closer) (closed.drop closer.length) reading

/--
Reads the next piece: the text before the next tag, or the tag.
-/
def step (s : Scanner) : Step :=
  match Text.breakOn s.delimiters.start.toList s.rest with
  | ([], []) => .finished
  | ([], found) => s.readTag found
  | (text, found) => s.emit text found .text

theorem readTag_shorter {s next : Scanner} {found : List Char} {piece : Piece}
    (h : s.readTag found = .piece piece next) : next.rest.length < found.length := by
  simp only [readTag] at h
  split at h
  . simp at h
  next inner closed hne hb =>
    have hlen := Text.breakOn_length
      ((if isTriple s.delimiters found = true then ['\x7d'] else []) ++ s.delimiters.stop.toList)
      (found.drop (s.delimiters.start.length + if isTriple s.delimiters found = true then 1 else 0))
    have hclosed : closed ≠ [] := fun he => hne (by simp [he])
    have hfound := Text.breakOn_found (by rw [hb]; exact hclosed)
    rw [hb] at hlen hfound
    simp only [List.length_drop] at hlen
    have hcloser := List.length_pos_iff.2 hfound.1
    have hpos := List.length_pos_iff.2 hclosed
    split at h
    . simp at h
    . simp only [emit, Step.piece.injEq] at h
      rw [← h.2]
      simp only [List.length_drop]
      omega

theorem step_shorter {s next : Scanner} {piece : Piece} (h : s.step = .piece piece next) :
    next.rest.length < s.rest.length := by
  have hlen := Text.breakOn_length s.delimiters.start.toList s.rest
  simp only [step] at h
  split at h
  . simp at h
  next hb =>
    rw [hb] at hlen
    have := readTag_shorter h
    simp only [List.length_nil] at hlen
    omega
  next text found _ htext hb =>
    rw [hb] at hlen
    simp only [emit, Step.piece.injEq] at h
    rw [← h.2]
    have : text ≠ [] := htext
    have := List.length_pos_iff.2 this
    dsimp only at hlen ⊢
    omega

/--
All pieces from a place in a source on, and the fault that ends them unless the source does.
-/
def pieces (s : Scanner) : List Piece × Option SyntaxError :=
  match h : s.step with
  | .finished => ([], none)
  | .fault fault => ([], some (.malformed s.position fault))
  | .piece piece next =>
    have := step_shorter h
    let (pieces, fault) := next.pieces
    (piece :: pieces, fault)
termination_by s.rest.length

theorem pieces_of_finished {s : Scanner} (h : s.step = .finished) : s.pieces = ([], none) := by
  rw [pieces]
  split <;> simp_all

theorem pieces_of_fault {s : Scanner} {fault : Fault} (h : s.step = .fault fault) :
    s.pieces = ([], some (.malformed s.position fault)) := by
  rw [pieces]
  split <;> simp_all

theorem pieces_of_piece {s next : Scanner} {piece : Piece} (h : s.step = .piece piece next) :
    s.pieces = (piece :: next.pieces.1, next.pieces.2) := by
  rw [pieces]
  split <;> simp_all

end Scanner

end Mustache.Source
