import Mustache.Proofs.Grammar
import Mustache.Proofs.Scanning

/-!
This module contains the reading of the text of a tree. The main statement is that a tree is read back from its text if
each of its tags is: its arguments are read back, and its text does not run into the delimiters around it.
-/

namespace Mustache

open Source

def Call.Fits (call : Call) (d : Delimiters) : Escape → Prop
  | .html =>
    Text.Clears d.stop.toList call.text.toList ∧ call.text ≠ "else" ∧
      (∀ c ∈ call.text.toList.head?, c ∉ sigils) ∧
      (d.start = Delimiters.standard.start → call.text.toList.head? ≠ some '\x7b')
  | .triple =>
    if d.start = Delimiters.standard.start then
      Text.Clears ('\x7d' :: d.stop.toList) call.text.toList
    else
      Text.Clears d.stop.toList ('&' :: call.text.toList)
  | .ampersand => Text.Clears d.stop.toList ('&' :: call.text.toList)

structure Opening.Legible (d : Delimiters) (o : Opening) : Prop where
  call : o.call.Legible
  opens : Text.Clears d.stop.toList (o.marker :: o.call.text.toList)
  closes : Text.Clears d.stop.toList ('/' :: o.call.name.toList)

def Node.isLiteral : Node → Bool
  | .literal _ => true
  | _ => false

mutual

def Node.Legible (d : Delimiters) : Node → Prop
  | .literal text => text.toList ≠ [] ∧ Text.Clears d.start.toList text.toList
  | .comment text => Text.Clears d.stop.toList ('!' :: text.toList)
  | .variable call escape => call.Legible ∧ call.Fits d escape
  | .inclusion path =>
    path.toList ≠ [] ∧ (∀ c ∈ path.toList, Text.isBlank c = false) ∧ Text.Clears d.stop.toList ('>' :: path.toList)
  | .block opening none _ => opening.Legible d
  | .block opening (some body) _ => opening.Legible d ∧ Fragment.Legible d body

def Fragment.Legible (d : Delimiters) : List Node → Prop
  | [] => True
  | node :: nodes =>
    node.Legible d ∧ (node.isLiteral → ∀ next ∈ nodes.head?, next.isLiteral = false) ∧ Fragment.Legible d nodes

end

def Escape.normalized (d : Delimiters) : Escape → Escape
  | .html => .html
  | .triple => if d.start = Delimiters.standard.start then .triple else .ampersand
  | .ampersand => .ampersand

mutual

/--
What is read back of a node: a section has the delimiters it is written with, a body and no inverse.
-/
def Node.normalized (d : Delimiters) : Node → Node
  | .literal text => .literal text
  | .comment text => .comment text
  | .variable call escape => .variable call (escape.normalized d)
  | .inclusion path => .inclusion path
  | .block opening none _ => .block { opening with delimiters := d } (some []) none
  | .block opening (some body) _ => .block { opening with delimiters := d } (some (Fragment.normalized d body)) none

def Fragment.normalized (d : Delimiters) : List Node → List Node
  | [] => []
  | node :: nodes => node.normalized d :: Fragment.normalized d nodes

end

namespace Call

theorem last_not_blank {word : List Char} {words : List (List Char)} (hword : IsWhole word)
    (hwords : ∀ w ∈ words, w ≠ [] ∧ IsWhole w) :
    ∀ c ∈ (word ++ words.flatMap (' ' :: ·)).getLast?, Text.isBlank c = false := by
  induction words generalizing word with
  | nil => simpa using hword.last_not_blank
  | cons next words ih =>
    obtain ⟨hne, hnext⟩ := hwords next List.mem_cons_self
    have := ih hnext fun w hw => hwords w (List.mem_cons_of_mem _ hw)
    rw [List.flatMap_cons, List.cons_append, List.getLast?_append, Option.or_of_isSome (by simp),
      List.getLast?_cons_of_ne_nil (by simp [hne])]
    exact this

variable {call : Call}

theorem Legible.text_ne (h : call.Legible) : call.text.toList ≠ [] := by
  rw [toList_text]
  simp [h.name_ne]

theorem Legible.head?_text (h : call.Legible) : call.text.toList.head? = call.name.toList.head? := by
  rw [toList_text, List.head?_append, Option.or_of_isSome (by simp [h.name_ne])]

theorem Legible.text_head (h : call.Legible) : ∀ c ∈ call.text.toList.head?, Text.isBlank c = false := by
  rw [h.head?_text]
  exact h.name_whole.head_not_blank

theorem Legible.text_last (h : call.Legible) : ∀ c ∈ call.text.toList.getLast?, Text.isBlank c = false := by
  rw [toList_text]
  exact last_not_blank h.name_whole h.argument_whole

end Call

namespace Source

variable {d : Delimiters} {rest : List Char}

theorem written_sigil (hd : d.isProper) {kind : TagKind} {c : Char} (hkind : kind.sigil? = some c) {content : List Char}
    (hclears : Text.Clears d.stop.toList (c :: content)) (hhead : ∀ x ∈ content.head?, Text.isBlank x = false)
    (hlast : ∀ x ∈ content.getLast?, Text.isBlank x = false) :
    Scanner.Written d rest (d.start.toList ++ (c :: content ++ d.stop.toList)) (.tag kind content) := by
  have hread := readTag_sigil hkind content
  rw [Text.trim_eq_self hhead hlast] at hread
  refine .tag hd hclears ?_ hread
  intro _
  cases kind <;> cases hkind <;> simp

/--
The text is read as pieces that stand for some nodes, if it is in front of `rest`.
-/
def Scans (d : Delimiters) (text rest : List Char) (nodes : Fragment) : Prop :=
  ∀ p, ∃ ps, Scanner.Yields ⟨text ++ rest, p, d⟩ ps ⟨rest, p.advance text, d⟩ ∧
    Derives (ps.filterMap Piece.token?) nodes

theorem Scans.nil : Scans d [] rest [] :=
  fun _ => ⟨[], .refl _, .nil⟩

theorem Scans.append {text more : List Char} {nodes others : Fragment} (h : Scans d text (more ++ rest) nodes)
    (hmore : Scans d more rest others) : Scans d (text ++ more) rest (nodes ++ others) := by
  intro p
  obtain ⟨ps, hps, hnodes⟩ := h p
  obtain ⟨qs, hqs, hothers⟩ := hmore (p.advance text)
  refine ⟨ps ++ qs, ?_, ?_⟩
  . rw [List.append_assoc, Position.advance_append]
    exact hps.append hqs
  . rw [List.filterMap_append]
    exact hnodes.append hothers

theorem scans_tag (hd : d.isProper) {span content : List Char} {kind : TagKind} {node : Node}
    (h : Scanner.Written d rest span (.tag kind content))
    (hreads : ∀ p, (Token.tag ⟨kind, content, p, d⟩).Reads node) : Scans d span rest [node] :=
  fun p => ⟨_, Scanner.yields_of_written hd h, .singleton (hreads p)⟩

theorem scans_block (hd : d.isProper) {first inner last content : List Char} {kind : TagKind}
    {opening : Opening} {body : Fragment}
    (hfirst : Scanner.Written d (inner ++ (last ++ rest)) first (.tag kind content))
    (hopens : ∀ p, Tag.Opens ⟨kind, content, p, d⟩ opening) (hbody : Scans d inner (last ++ rest) body)
    (hlast : Scanner.Written d rest last (.tag .closing opening.call.name.toList)) :
    Scans d (first ++ (inner ++ last)) rest [.block opening (some body) none] := by
  intro p
  let opener : Piece := ⟨first, p, d, .tag kind content⟩
  let closer : Piece := ⟨last, (p.advance first).advance inner, d, .tag .closing opening.call.name.toList⟩
  obtain ⟨ps, hps, hderives⟩ := hbody (p.advance first)
  have hopen := Scanner.yields_of_written (p := p) hd hfirst
  have hclose := Scanner.yields_of_written (p := closer.position) hd hlast
  refine ⟨opener :: (ps ++ [closer]), ?_, ?_⟩
  . simp only [List.append_assoc, Position.advance_append]
    exact hopen.append (hps.append hclose)
  . rw [List.filterMap_cons, List.filterMap_append]
    exact .block (hopens p) hderives ⟨rfl, rfl⟩ .nil

end Source

namespace Node

variable {d : Delimiters}

theorem toList_wrap (o : Opening) (inner : String) :
    (o.wrap d inner).toList = (d.start.toList ++ (o.marker :: o.call.text.toList ++ d.stop.toList)) ++
      (inner.toList ++ (d.start.toList ++ ('/' :: o.call.name.toList ++ d.stop.toList))) := by
  simp [Opening.wrap]

theorem start_prefix {node : Node} (h : node.isLiteral = false) :
    d.start.toList <+: (node.textWith d).toList := by
  unfold textWith
  split
  . cases h
  . simp
  next call escape =>
    unfold Call.variableText
    split
    . simp
    . split <;> simp
    . simp
  . simp
  . simp [toList_wrap]
  . simp [toList_wrap]

end Node

namespace Source

variable {d : Delimiters}

theorem scans_wrap (hd : d.isProper) {o : Opening} (ho : o.Legible d) {inner : String} {rest : List Char}
    {body : Fragment}
    (hbody : Scans d inner.toList ((d.start.toList ++ ('/' :: o.call.name.toList ++ d.stop.toList)) ++ rest) body) :
    Scans d (o.wrap d inner).toList rest [.block { o with delimiters := d } (some body) none] := by
  have hcall := ho.call.readCall_text
  have hlast : Scanner.Written d rest _ (.tag .closing o.call.name.toList) :=
    written_sigil hd rfl ho.closes ho.call.name_whole.head_not_blank ho.call.name_whole.last_not_blank
  rw [Node.toList_wrap]
  cases hinverted : o.inverted with
  | false =>
    have hmarker : TagKind.sigil? .opening = some o.marker := by simp [Opening.marker, hinverted, TagKind.sigil?]
    refine scans_block hd (written_sigil hd hmarker ho.opens ho.call.text_head ho.call.text_last) ?_ hbody hlast
    exact fun p => ⟨.inl ⟨rfl, rfl⟩, hcall, rfl⟩
  | true =>
    have hmarker : TagKind.sigil? .inverted = some o.marker := by simp [Opening.marker, hinverted, TagKind.sigil?]
    refine scans_block hd (written_sigil hd hmarker ho.opens ho.call.text_head ho.call.text_last) ?_ hbody hlast
    exact fun p => ⟨.inr ⟨rfl, ho.call.text_ne, rfl⟩, hcall, rfl⟩

theorem scans_variable (hd : d.isProper) {call : Call} (hcall : call.Legible) {escape : Escape}
    (h : call.Fits d escape) (rest : List Char) :
    Scans d (call.variableText escape d).toList rest [.variable call (escape.normalized d)] := by
  have hread := hcall.readCall_text
  have htrim := Text.trim_eq_self hcall.text_head hcall.text_last
  have hampersand (h : Text.Clears d.stop.toList ('&' :: call.text.toList)) :
      Scans d (d.start.toList ++ ('&' :: call.text.toList ++ d.stop.toList)) rest [.variable call .ampersand] := by
    have hsigil : TagKind.sigil? .ampersand = some '&' := rfl
    exact scans_tag hd (written_sigil hd hsigil h hcall.text_head hcall.text_last)
      fun p => .value rfl hread (by simp [Tag.IsElse])
  cases escape with
  | html =>
    obtain ⟨hclears, helse, hsigil, hsingle⟩ := h
    have hwritten : Scanner.Written d rest (d.start.toList ++ (call.text.toList ++ d.stop.toList))
        (.tag .escaped call.text.toList) := by
      have hescaped := readTag_escaped (htrim.symm ▸ hsigil)
      rw [htrim] at hescaped
      refine .tag hd hclears ?_ hescaped
      intro hstart
      rw [List.head?_append, Option.or_of_isSome (by simpa using hcall.text_ne)]
      exact hsingle hstart
    rw [Call.variableText, String.toList_append, String.toList_append, List.append_assoc]
    -- the tag begins no inverse, since it is not `else`
    refine scans_tag hd hwritten fun p => .value rfl hread ?_
    rintro (⟨-, hcontent⟩ | ⟨hkind, -⟩)
    . exact helse (String.toList_inj.1 hcontent)
    . cases hkind
  | triple =>
    simp only [Call.Fits, Call.variableText, Escape.normalized] at h ⊢
    split at h
    next hstart =>
      have hwritten : Scanner.Written d rest _ _ := .triple hstart h
      rw [htrim] at hwritten
      have hscans := scans_tag hd hwritten fun p => .value rfl hread (by simp [Tag.IsElse])
      simpa [hstart] using hscans
    next hstart => simpa [hstart] using hampersand h
  | ampersand => simpa [Call.variableText, Escape.normalized] using hampersand h

def AtTag (d : Delimiters) (rest : List Char) : Prop :=
  rest = [] ∨ d.start.toList <+: rest

theorem scans_literal (hd : d.isProper) {text : String} (hne : text.toList ≠ [])
    (hclears : Text.Clears d.start.toList text.toList) {rest : List Char} (hrest : AtTag d rest) :
    Scans d text.toList rest [.literal text] := by
  intro p
  have hstart := (Scanner.proper_iff.1 hd).1
  have hcut : Text.breakOn d.start.toList (text.toList ++ rest) = (text.toList, rest) := by
    -- the text ends with the source, or where the next tag begins
    rcases hrest with rfl | ⟨more, rfl⟩
    . rw [List.append_nil]
      exact hclears.breakOn_self hstart
    . rw [← List.append_assoc]
      exact hclears.breakOn_append hstart more
  refine ⟨_, .step (Scanner.step_of_written hd (.text hne hcut)) (.refl _), ?_⟩
  have := Derives.singleton (.literal text.toList)
  rwa [String.ofList_toList] at this

theorem scans_comment (hd : d.isProper) {text : String} (h : Text.Clears d.stop.toList ('!' :: text.toList))
    (rest : List Char) :
    Scans d (d.start.toList ++ ('!' :: text.toList ++ d.stop.toList)) rest [.comment text] := by
  have hwritten : Scanner.Written d rest _ (.tag .comment text.toList) := .tag hd h (by simp) (readTag_comment _)
  refine scans_tag hd hwritten fun p => ?_
  have hreads : Token.Reads (.tag ⟨.comment, text.toList, p, d⟩) _ := .comment rfl
  rwa [String.ofList_toList] at hreads

theorem scans_inclusion (hd : d.isProper) {path : String} (hne : path.toList ≠ [])
    (hsolid : ∀ c ∈ path.toList, Text.isBlank c = false) (h : Text.Clears d.stop.toList ('>' :: path.toList))
    (rest : List Char) :
    Scans d (d.start.toList ++ ('>' :: path.toList ++ d.stop.toList)) rest [.inclusion path] := by
  have hsigil : TagKind.sigil? .inclusion = some '>' := rfl
  have hwritten : Scanner.Written d rest _ (.tag .inclusion path.toList) :=
    written_sigil hd hsigil h (fun c hc => hsolid c (List.mem_of_mem_head? hc))
      (fun c hc => hsolid c (List.mem_of_getLast? hc))
  refine scans_tag hd hwritten fun p => ?_
  have hreads : Token.Reads (.tag ⟨.inclusion, path.toList, p, d⟩) _ :=
    .inclusion rfl (Text.words_eq_singleton hne hsolid)
  rwa [String.ofList_toList] at hreads

theorem atTag_textWith {nodes : List Node} (h : ∀ node ∈ nodes.head?, node.isLiteral = false) {rest : List Char}
    (hrest : AtTag d rest) : AtTag d ((Fragment.textWith d nodes).toList ++ rest) := by
  cases nodes with
  | nil => simpa [Fragment.textWith] using hrest
  | cons node nodes =>
    have hstart := Node.start_prefix (d := d) (h node rfl)
    rw [Fragment.textWith, String.toList_append, List.append_assoc]
    exact .inr (hstart.trans (List.prefix_append ..))

mutual

theorem Node.scans (hd : d.isProper) : ∀ {node : Node}, node.Legible d → ∀ {rest : List Char},
    (node.isLiteral → AtTag d rest) → Scans d (node.textWith d).toList rest [node.normalized d]
  | .literal text, h, rest, hrest => scans_literal hd h.1 h.2 (hrest rfl)
  | .comment text, h, rest, _ => by
    simpa [Node.textWith, Node.normalized] using scans_comment hd h rest
  | .variable call escape, h, rest, _ => scans_variable hd h.1 h.2 rest
  | .inclusion path, h, rest, _ => by
    simpa [Node.textWith, Node.normalized] using scans_inclusion hd h.1 h.2.1 h.2.2 rest
  | .block opening none _, h, rest, _ => scans_wrap hd h .nil
  | .block opening (some body) _, h, rest, _ => by
    refine scans_wrap hd h.1 (Fragment.scans hd h.2 (.inr ?_))
    rw [List.append_assoc]
    exact List.prefix_append ..

theorem Fragment.scans (hd : d.isProper) : ∀ {nodes : List Node}, Fragment.Legible d nodes →
    ∀ {rest : List Char}, AtTag d rest →
    Scans d (Fragment.textWith d nodes).toList rest (Fragment.normalized d nodes)
  | [], _, rest, _ => .nil
  | node :: nodes, h, rest, hrest => by
    have hnode := Node.scans hd h.1 fun hliteral => atTag_textWith (h.2.1 hliteral) hrest
    have hnodes := Fragment.scans hd h.2.2 hrest
    rw [Fragment.textWith, String.toList_append]
    exact hnode.append hnodes

end

end Source

/--
A tree is read back from its text if each of its tags is.
-/
theorem Fragment.Legible.parse_textWith {d : Delimiters} (hd : d.isProper) {f : Fragment}
    (h : Fragment.Legible d f) : parse (Fragment.textWith d f) d = .ok (Fragment.normalized d f) := by
  obtain ⟨ps, hyields, hderives⟩ := Fragment.scans hd h (.inl rfl) .first
  have hpieces := hyields.pieces_eq
  rw [List.append_nil, Scanner.pieces_of_empty, List.append_nil] at hpieces
  rw [parse, if_pos hd, Scanner.start, hpieces]
  exact hderives.parseTokens_eq

end Mustache
