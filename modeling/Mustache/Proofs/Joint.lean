import Mathlib.Data.List.Basic
import Mustache.Proofs.Faults
import Mustache.Proofs.Partition

/-!
This module contains two sources that stand one behind the other. The main statement is that a source that ends with a
tag reads the same whatever comes behind it, and that what comes behind it reads as if it stood alone.
-/

namespace Mustache

namespace Position

/--
The place `p` of a text that itself begins at the place `q`. Only its first line continues one.
-/
def behind (p q : Position) : Position :=
  if p.line = 1 then ⟨q.line, q.column + p.column - 1⟩ else ⟨q.line + p.line - 1, p.column⟩

structure Counted (p : Position) : Prop where
  line : 0 < p.line
  column : 0 < p.column

variable {p : Position}

theorem counted_first : first.Counted :=
  ⟨by decide, by decide⟩

theorem Counted.next (h : p.Counted) (c : Char) : (p.next c).Counted := by
  unfold Position.next
  split
  . exact ⟨Nat.succ_pos _, Nat.one_pos⟩
  . exact ⟨h.line, Nat.succ_pos _⟩

theorem Counted.advance (h : p.Counted) (cs : List Char) : (p.advance cs).Counted := by
  induction cs generalizing p with
  | nil => exact h
  | cons c cs ih => exact ih (h.next c)

theorem behind_first (q : Position) : first.behind q = q := by
  simp [behind, first]

theorem Counted.behind_next (h : p.Counted) (q : Position) (c : Char) :
    (p.next c).behind q = (p.behind q).next c := by
  have hline := h.line
  have hcolumn := h.column
  unfold Position.next behind
  by_cases hc : c = '\n'
  . by_cases hp : p.line = 1
    . simp [hc, hp]
    . simp only [hc, hp, ↓reduceIte]
      rw [if_neg (by omega), Position.mk.injEq]
      omega
  . by_cases hp : p.line = 1
    . simp only [hc, hp, ↓reduceIte, Position.mk.injEq, true_and]
      omega
    . simp [hc, hp]

theorem Counted.behind_advance (h : p.Counted) (q : Position) (cs : List Char) :
    (p.advance cs).behind q = (p.behind q).advance cs := by
  induction cs generalizing p with
  | nil => rfl
  | cons c cs ih =>
    change ((p.next c).advance cs).behind q = ((p.behind q).next c).advance cs
    rw [ih (h.next c), h.behind_next]

end Position

def SyntaxError.behind (e : SyntaxError) (q : Position) : SyntaxError :=
  match e with
  | .malformed p fault => .malformed (p.behind q) fault
  | .emptyName => .emptyName
  | .bodyAlreadySet name => .bodyAlreadySet name

namespace Source

def Piece.behind (p : Piece) (q : Position) : Piece :=
  { p with position := p.position.behind q }

def Tag.behind (tag : Tag) (q : Position) : Tag :=
  { tag with position := tag.position.behind q }

def Token.behind (token : Token) (q : Position) : Token :=
  match token with
  | .text characters => .text characters
  | .tag t => .tag (t.behind q)

theorem Piece.token?_behind (p : Piece) (q : Position) : (p.behind q).token? = p.token?.map (·.behind q) := by
  obtain ⟨span, position, delimiters, reading⟩ := p
  cases reading <;> rfl

theorem tokens_behind (ps : List Piece) (q : Position) :
    (ps.map (·.behind q)).filterMap Piece.token? = (ps.filterMap Piece.token?).map (·.behind q) := by
  rw [List.filterMap_map, List.map_filterMap]
  exact congrArg (List.filterMap · ps) (funext fun p => p.token?_behind q)

def Step.behind (step : Step) (q : Position) : Step :=
  match step with
  | .finished => .finished
  | .fault f => .fault f
  | .piece p next => .piece (p.behind q) { next with position := next.position.behind q }

namespace Scanner

def behind (s : Scanner) (q : Position) : Scanner :=
  { s with position := s.position.behind q }

def followed (s : Scanner) (t : List Char) : Scanner :=
  { s with rest := s.rest ++ t }

variable {s next last : Scanner} {piece : Piece} {ps : List Piece}

theorem emit_behind (h : s.position.Counted) (q : Position) (span rest : List Char) (reading : Reading) :
    (s.behind q).emit span rest reading = (s.emit span rest reading).behind q := by
  simp only [emit, behind, Step.behind, h.behind_advance]
  rfl

theorem readTag_behind (h : s.position.Counted) (q : Position) (found : List Char) :
    (s.behind q).readTag found = (s.readTag found).behind q := by
  have hemit := emit_behind h q
  unfold readTag
  simp only [show (s.behind q).delimiters = s.delimiters from rfl]
  generalize Text.breakOn _ _ = broken
  obtain ⟨inner, closed⟩ := broken
  cases closed with
  | nil => rfl
  | cons c closed =>
    dsimp only
    generalize (if isTriple s.delimiters found = true then
      (.ok (.tag .triple (Text.trim inner)) : Except Fault Reading) else Source.readTag inner) = read
    cases read with
    | error fault => rfl
    | ok reading => exact hemit ..

theorem step_behind (h : s.position.Counted) (q : Position) : (s.behind q).step = s.step.behind q := by
  unfold step
  simp only [show (s.behind q).delimiters = s.delimiters from rfl, show (s.behind q).rest = s.rest from rfl]
  generalize Text.breakOn _ _ = broken
  obtain ⟨text, found⟩ := broken
  cases text with
  | nil =>
    cases found with
    | nil => rfl
    | cons c found => exact readTag_behind h q _
  | cons c text => exact emit_behind h q ..

theorem pieces_behind (h : s.position.Counted) (q : Position) :
    (s.behind q).pieces = (s.pieces.1.map (·.behind q), s.pieces.2.map (·.behind q)) := by
  induction s using Scanner.pieces.induct with
  | case1 s hstep =>
    have hmoved := step_behind h q
    rw [hstep] at hmoved
    rw [pieces_of_finished hstep, pieces_of_finished hmoved]
    rfl
  | case2 s fault hstep =>
    have hmoved := step_behind h q
    rw [hstep] at hmoved
    rw [pieces_of_fault hstep, pieces_of_fault hmoved]
    rfl
  | case3 s piece next hstep _ _ _ _ ih =>
    have hmoved := step_behind h q
    rw [hstep] at hmoved
    have hnext : next.position.Counted := by
      rw [(next_position hstep).2]
      exact h.advance _
    rw [pieces_of_piece hstep, pieces_of_piece hmoved]
    change (_ :: (next.behind q).pieces.1, (next.behind q).pieces.2) = _
    rw [ih hnext]
    rfl

theorem Written.followed {d : Delimiters} {rest span : List Char} {reading : Reading}
    (h : Written d rest span reading) (hd : d.isProper) (hjoint : reading = .text → rest ≠ []) (t : List Char) :
    Written d (rest ++ t) span reading := by
  have hstart := (proper_iff.1 hd).1
  cases h with
  | text hne hcut =>
    refine .text hne ?_
    obtain ⟨-, hclears, more, rfl, -⟩ := Text.breakOn_eq_found hcut (hjoint rfl)
    have hfirst := hclears.breakOn_append hstart (more ++ t)
    simpa only [List.append_assoc] using hfirst
  | tag hd hclears hsingle hread => exact .tag hd hclears hsingle hread
  | triple hstandard hclears => exact .triple hstandard hclears

theorem step_followed (hs : s.delimiters.isProper) (hstep : s.step = .piece piece next)
    (hjoint : piece.reading = .text → next.rest ≠ []) (t : List Char) :
    (s.followed t).step = .piece piece (next.followed t) := by
  obtain ⟨hwritten, hrest, hemit⟩ := written_of_step hstep
  have hmore := step_of_written (p := s.position) hs (hwritten.followed hs hjoint t)
  have hs' : s.followed t = ⟨piece.span ++ (next.rest ++ t), s.position, s.delimiters⟩ := by
    rw [followed, hrest, List.append_assoc]
  rw [hs', hmore]
  simp only [emit, Step.piece.injEq] at hemit ⊢
  refine ⟨hemit.1, ?_⟩
  rw [followed, ← hemit.2]

theorem Yields.followed (h : Yields s ps last) (hs : s.delimiters.isProper)
    (hjoint : ∀ p ∈ ps.getLast?, p.reading = .text → last.rest ≠ []) (t : List Char) :
    Yields (s.followed t) ps (last.followed t) := by
  induction h with
  | refl => exact .refl _
  | @step s next last piece ps hstep hrest ih =>
    refine .step (step_followed hs hstep ?_ t) (ih (step_proper hstep hs) ?_)
    . intro htext
      cases hrest with
      | refl => exact hjoint piece rfl htext
      | step hnext _ => exact rest_ne_of_step hnext
    . intro p hp
      apply hjoint
      rw [List.getLast?_cons, Option.mem_def.1 hp]
      rfl

end Scanner

def OpenSection.behind (s : OpenSection) (q : Position) : OpenSection :=
  { s with position := s.position.behind q }

def Builder.behind (b : Builder) (nodes : Fragment) (q : Position) : Builder :=
  ⟨nodes ++ b.root, b.stack.map (·.behind q)⟩

namespace Builder

variable (b : Builder) (nodes : Fragment) (q : Position)

theorem push_behind (node : Node) : (b.behind nodes q).push node = (b.push node).behind nodes q := by
  obtain ⟨root, stack⟩ := b
  cases stack with
  | nil => simp [push, behind]
  | cons s stack =>
    obtain ⟨block, body, inverse, position⟩ := s
    cases inverse <;> rfl

theorem beginInverse_behind : (b.behind nodes q).beginInverse = b.beginInverse.map (·.behind nodes q) := by
  obtain ⟨root, stack⟩ := b
  cases stack with
  | nil => rfl
  | cons s stack =>
    obtain ⟨block, body, inverse, position⟩ := s
    cases inverse <;> rfl

theorem openSection_behind (tag : Tag) (inverted : Bool) (call : Call) :
    (b.behind nodes q).openSection (tag.behind q) inverted call =
      ((b.openSection tag inverted call).map (·.behind nodes q)).mapError (·.behind q) := by
  unfold openSection Block.new
  split <;> rfl

theorem behind_of_close {s : OpenSection} {e : SyntaxError} (h : s.close = .error e) : e.behind q = e := by
  obtain ⟨⟨opening, body, inverse⟩, inside, more, position⟩ := s
  cases body <;> cases h
  rfl

theorem closeSection_behind (position : Position) (name : String) :
    (b.behind nodes q).closeSection (position.behind q) name =
      ((b.closeSection position name).map (·.behind nodes q)).mapError (·.behind q) := by
  obtain ⟨root, stack⟩ := b
  cases stack with
  | nil => rfl
  | cons s stack =>
    simp only [closeSection, behind, List.map_cons, OpenSection.behind]
    split
    . change s.close.map _ = _
      cases hclose : s.close with
      | error e => exact congrArg Except.error (behind_of_close q hclose).symm
      | ok block => exact congrArg Except.ok (push_behind ⟨root, stack⟩ nodes q block.node)
    . rfl

theorem add_behind (token : Token) :
    (b.behind nodes q).add (token.behind q) =
      ((b.add token).map (·.behind nodes q)).mapError (·.behind q) := by
  cases token with
  | text characters => exact congrArg Except.ok (push_behind ..)
  | tag tag =>
    simp only [add, Token.behind, addTag, show isElse (tag.behind q) = isElse tag from rfl,
      show (tag.behind q).kind = tag.kind from rfl, show (tag.behind q).content = tag.content from rfl]
    split
    . rw [beginInverse_behind]
      cases b.beginInverse <;> rfl
    . cases tag.kind with
      | opening =>
        cases readCall tag.content with
        | error fault => rfl
        | ok call => exact openSection_behind ..
      | inverted =>
        cases readCall tag.content with
        | error fault => rfl
        | ok call => exact openSection_behind ..
      | closing => exact closeSection_behind ..
      | inclusion =>
        cases Text.words tag.content with
        | nil => rfl
        | cons path more => exact congrArg Except.ok (push_behind ..)
      | comment => exact congrArg Except.ok (push_behind ..)
      | escaped | triple | ampersand =>
        cases readCall tag.content with
        | error fault => rfl
        | ok call => exact congrArg Except.ok (push_behind ..)

theorem finish_behind : (b.behind nodes q).finish = (b.finish.map (nodes ++ ·)).mapError (·.behind q) := by
  obtain ⟨root, stack⟩ := b
  cases stack <;> rfl

end Builder

theorem parseTokens_behind {before : List Token} {nodes : Fragment} (h : Derives before nodes) (q : Position)
    (tokens : List Token) (fault : Option SyntaxError) :
    parseTokens (before ++ tokens.map (·.behind q)) (fault.map (·.behind q)) =
      ((parseTokens tokens fault).map (nodes ++ ·)).mapError (·.behind q) := by
  have hrun := run_map (fun b token => Builder.add_behind b nodes q token) tokens {}
  have hempty : Builder.pushAll {} nodes = Builder.behind {} nodes q := by
    rw [Builder.pushAll_root]
    simp [Builder.behind]
  unfold parseTokens
  rw [run_append, h.run, Except.bind, hempty, hrun]
  cases tokens.foldlM Builder.add {} with
  | error e => rfl
  | ok b =>
    cases fault with
    | none => exact Builder.finish_behind ..
    | some fault => rfl

theorem pieces_append {cs : List Char} {d : Delimiters} (hd : d.isProper) {ps : List Piece}
    (h : (Scanner.start cs d).pieces = (ps, none)) (hjoint : ∀ p ∈ ps.getLast?, p.reading ≠ .text) (ds : List Char) :
    let behind := (Scanner.start ds (delimitersBehind d ps)).pieces
    let q := Position.first.advance cs
    (delimitersBehind d ps).isProper ∧
      (Scanner.start (cs ++ ds) d).pieces = (ps ++ behind.1.map (·.behind q), behind.2.map (·.behind q)) := by
  obtain ⟨last, hyields, hend⟩ := Scanner.yields_of_pieces_eq h
  obtain ⟨hdelimiters, hposition⟩ := hyields.behind
  have hrest := hyields.rest_eq
  rw [hend, List.append_nil] at hrest
  rw [← hrest] at hposition
  have hbehind : last.followed ds =
      (Scanner.start ds (delimitersBehind d ps)).behind (Position.first.advance cs) := by
    rw [Scanner.followed, Scanner.behind, Scanner.start, hend, hposition, hdelimiters, Position.behind_first]
    rfl
  have hall := (hyields.followed hd (fun p hp htext => absurd htext (hjoint p hp)) ds).pieces_eq
  rw [hbehind, Scanner.pieces_behind Position.counted_first] at hall
  refine ⟨?_, hall⟩
  have hproper := hyields.proper hd
  rwa [hdelimiters] at hproper

/--
What a source reads as whose first part has the nodes `nodes` and ends at `q`, and whose second part, alone, reads as
the first argument says.
-/
inductive Joined (nodes : Fragment) (q : Position) :
    Except SyntaxError Fragment → Except SyntaxError Fragment → Prop where
  | ok (others : Fragment) : Joined nodes q (.ok others) (.ok (nodes ++ others))
  | error (p : Position) (fault : Fault) :
    Joined nodes q (.error (.malformed p fault)) (.error (.malformed (p.behind q) fault))

theorem Joined.eq_ok {nodes others : Fragment} {q : Position} {whole : Except SyntaxError Fragment}
    (h : Joined nodes q (.ok others) whole) : whole = .ok (nodes ++ others) := by
  cases h
  rfl

theorem Joined.eq_error {nodes : Fragment} {p q : Position} {fault : Fault} {whole : Except SyntaxError Fragment}
    (h : Joined nodes q (.error (.malformed p fault)) whole) : whole = .error (.malformed (p.behind q) fault) := by
  cases h
  rfl

theorem joined_of_parse {s : String} {d : Delimiters} {f : Fragment} (h : parse s d = .ok f)
    (hjoint : ∀ p ∈ (Scanner.start s.toList d).pieces.1.getLast?, p.reading ≠ .text) (t : String) :
    Joined f (Position.first.advance s.toList)
      (parse t (delimitersBehind d (Scanner.start s.toList d).pieces.1)) (parse (s ++ t) d) := by
  obtain ⟨hd, hderives⟩ := derives_of_parse h
  have hpieces : (Scanner.start s.toList d).pieces = ((Scanner.start s.toList d).pieces.1, none) := by
    rw [parse, if_pos hd] at h
    exact Prod.ext rfl (fault_eq_none_of_parseTokens h)
  obtain ⟨hproper, hall⟩ := pieces_append hd hpieces hjoint t.toList
  have hwhole : parse (s ++ t) d =
      ((parse t (delimitersBehind d (Scanner.start s.toList d).pieces.1)).map (f ++ ·)).mapError
        (·.behind (Position.first.advance s.toList)) := by
    simp only [parse, if_pos hd, if_pos hproper, String.toList_append, hall]
    rw [List.filterMap_append, tokens_behind]
    exact parseTokens_behind hderives ..
  rw [hwhole]
  cases hrest : parse t (delimitersBehind d (Scanner.start s.toList d).pieces.1) with
  | error e =>
    obtain ⟨p, fault, rfl⟩ := parse_placed hrest
    exact .error p fault
  | ok others => exact .ok others

structure IsMark (mark : String) : Prop where
  nonempty : mark.toList ≠ []
  solid : ∀ c ∈ mark.toList, Text.isBlank c = false
  no_equals : '=' ∉ mark.toList

def announcement (d : Delimiters) : List Char :=
  '=' :: d.start.toList ++ ' ' :: d.stop.toList ++ ['=']

theorem readTag_change {inner rest : List Char} {d : Delimiters} (htrim : Text.trim inner = '=' :: rest)
    (hchange : readChange? rest = some d) : readTag inner = .ok (.change d) := by
  unfold readTag
  split
  case h_7 tail hequals =>
    cases htrim.symm.trans hequals
    rw [hchange]
    rfl
  case h_8 _ hother => exact absurd htrim (hother rest)
  all_goals
    next hsigil => cases htrim.symm.trans hsigil

theorem readTag_announcement {d : Delimiters} (hstart : IsMark d.start) (hstop : IsMark d.stop) :
    readTag (announcement d) = .ok (.change d) := by
  have htrim : Text.trim (announcement d) = announcement d := by
    refine Text.trim_eq_self ?_ ?_
    . rintro c ⟨⟩
      decide
    . intro c hc
      rw [announcement, List.getLast?_concat] at hc
      cases hc
      decide
  have hwords : Text.words (d.start.toList ++ ' ' :: d.stop.toList) = [d.start.toList, d.stop.toList] := by
    rw [Text.words_append hstart.nonempty hstart.solid (by decide), Text.words_eq_singleton hstop.nonempty hstop.solid]
  have hsuffix : ['='].isSuffixOf? (d.start.toList ++ ' ' :: d.stop.toList ++ ['=']) =
      some (d.start.toList ++ ' ' :: d.stop.toList) :=
    List.isSuffixOf?_eq_some_iff_append_eq.2 rfl
  have hchange : readChange? (d.start.toList ++ ' ' :: d.stop.toList ++ ['=']) = some d := by
    rw [readChange?, hsuffix]
    dsimp only
    rw [hwords]
    simp [hstart.no_equals, hstop.no_equals]
  exact readTag_change htrim hchange

theorem parse_announcement {d new : Delimiters} (hd : d.isProper) (hstart : IsMark new.start) (hstop : IsMark new.stop)
    (hclears : Text.Clears d.stop.toList (announcement new)) {s : String}
    (hs : s.toList = d.start.toList ++ (announcement new ++ d.stop.toList)) :
    (Scanner.start s.toList d).pieces = ([⟨s.toList, .first, d, .change new⟩], none) ∧ parse s d = .ok [] := by
  have hwritten : Scanner.Written d [] s.toList (.change new) := by
    rw [hs]
    refine .tag hd hclears ?_ (readTag_announcement hstart hstop)
    rintro - ⟨⟩
  have hstep := Scanner.step_of_written (p := .first) hd hwritten
  rw [List.append_nil] at hstep
  have hpieces : (Scanner.start s.toList d).pieces = ([⟨s.toList, .first, d, .change new⟩], none) := by
    rw [Scanner.start, Scanner.pieces_of_piece hstep, Scanner.pieces_of_empty]
  refine ⟨hpieces, ?_⟩
  rw [parse, if_pos hd, hpieces]
  rfl

end Source

open Source

/--
A source that is accepted and does not end inside of a text reads the same in front of any other one. That one reads as
it does alone, with the delimiters that are in force there, and is at fault at the place that it has in the whole. A
tag that announces these delimiters does nothing else.
-/
theorem parse_append {d : Delimiters} (hd : d.isProper) :
    (∀ {s : String} {f : Fragment}, parse s d = .ok f →
      (∀ p ∈ (Scanner.start s.toList d).pieces.1.getLast?, p.reading ≠ .text) → ∀ t : String,
        Joined f (Position.first.advance s.toList)
          (parse t (delimitersBehind d (Scanner.start s.toList d).pieces.1)) (parse (s ++ t) d)) ∧
    ∀ {new : Delimiters}, IsMark new.start → IsMark new.stop →
      Text.Clears d.stop.toList (announcement new) → ∀ t : String,
        let tag := d.start ++ String.ofList (announcement new) ++ d.stop
        Joined [] (Position.first.advance tag.toList) (parse t new) (parse (tag ++ t) d) := by
  refine ⟨joined_of_parse, ?_⟩
  intro new hstart hstop hclears t tag
  obtain ⟨hpieces, hparse⟩ := parse_announcement hd hstart hstop hclears (s := tag) (by simp [tag])
  have hjoined := joined_of_parse hparse (by simp [hpieces]) t
  rw [hpieces] at hjoined
  exact hjoined

theorem parse_append_change :
    let s := "\x7b\x7ba\x7d\x7d\n\x7b\x7b=<% %>=\x7d\x7d"
    let second : Delimiters := ⟨"<%", "%>"⟩
    let a : Node := .variable { name := "a" } .html
    let b : Node := .variable { name := "b" } .html
    parse s = .ok [a, .literal "\n"] ∧
      (parse "\x7b<%b%>" second = .ok [.literal "\x7b", b] ∧
        parse (s ++ "\x7b<%b%>") = .ok [a, .literal "\n", .literal "\x7b", b]) ∧
      (parse "x<%b" second = .error (.malformed ⟨1, 2⟩ .unclosedTag) ∧
        parse (s ++ "x<%b") = .error (.malformed ⟨2, 13⟩ .unclosedTag)) ∧
      parse ("\x7b\x7b" ++ String.ofList (announcement second) ++ "\x7d\x7d" ++ "\x7b<%b%>") =
        .ok [.literal "\x7b", b] := by
  intro s second a b
  let ps : List Piece := [
    ⟨"\x7b\x7ba\x7d\x7d".toList, ⟨1, 1⟩, .standard, .tag .escaped ['a']⟩,
    ⟨['\n'], ⟨1, 6⟩, .standard, .text⟩,
    ⟨"\x7b\x7b=<% %>=\x7d\x7d".toList, ⟨2, 1⟩, .standard, .change second⟩]
  have hpieces : (Scanner.start s.toList .standard).pieces = (ps, none) := Scanner.pieces_of_within 4 (by decide)
  have hs : parse s = .ok [a, .literal "\n"] := by
    rw [parse, if_pos (by decide), hpieces]
    rfl
  have ht : parse "\x7b<%b%>" second = .ok [.literal "\x7b", b] := by
    have hbehind : (Scanner.start "\x7b<%b%>".toList second).pieces = ([
        ⟨['\x7b'], ⟨1, 1⟩, second, .text⟩, ⟨"<%b%>".toList, ⟨1, 2⟩, second, .tag .escaped ['b']⟩], none) :=
      Scanner.pieces_of_within 3 (by decide)
    rw [parse, if_pos (by decide), hbehind]
    rfl
  have hbroken : parse "x<%b" second = .error (.malformed ⟨1, 2⟩ .unclosedTag) := by
    have hbehind : (Scanner.start "x<%b".toList second).pieces =
        ([⟨['x'], ⟨1, 1⟩, second, .text⟩], some (.malformed ⟨1, 2⟩ .unclosedTag)) :=
      Scanner.pieces_of_within 2 (by decide)
    rw [parse, if_pos (by decide), hbehind]
    rfl
  have hjoined := (parse_append (d := .standard) (by decide)).1 hs (by rw [hpieces]; decide)
  rw [hpieces] at hjoined
  have hstart : IsMark second.start := ⟨by decide, by decide, by decide⟩
  have hstop : IsMark second.stop := ⟨by decide, by decide, by decide⟩
  have hclears : Text.Clears Delimiters.standard.stop.toList (announcement second) := by decide
  have htag := (parse_append (d := .standard) (by decide)).2 hstart hstop hclears "\x7b<%b%>"
  have hwhole := hjoined "\x7b<%b%>"
  have hfault := hjoined "x<%b"
  change Joined _ _ (parse _ second) _ at hwhole hfault
  rw [ht] at hwhole htag
  rw [hbroken, show Position.first.advance s.toList = ⟨2, 12⟩ by decide] at hfault
  exact ⟨hs, ⟨ht, hwhole.eq_ok⟩, ⟨hbroken, hfault.eq_error⟩, htag.eq_ok⟩

end Mustache
