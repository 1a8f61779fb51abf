import Mustache.Proofs.Arguments

/-!
This module contains what follows if a tree is read back from its text. The main statement is that the tree of a source
is read back from its text only if it is faithful.
-/

namespace Mustache

open Source

/--
The stop delimiter does not begin like the rest of a number.
-/
def Delimiters.EndsNumbers (d : Delimiters) : Prop :=
  ∀ c ∈ d.stop.toList.head?, ¬Number.IsNumeral c

namespace Source

variable {d : Delimiters} {rest : List Char} {tokens : List Token} {tag : Tag}

/--
The characters `rest` are read as the tokens, at some place of a source.
-/
def Lexes (d : Delimiters) (rest : List Char) (tokens : List Token) : Prop :=
  ∃ p, (Scanner.pieces ⟨rest, p, d⟩).1.filterMap Piece.token? = tokens

theorem Scans.lexes {text : List Char} {nodes : Fragment} (h : Scans d text rest nodes)
    (htokens : Lexes d (text ++ rest) tokens) :
    ∃ first more, tokens = first ++ more ∧ Derives first nodes ∧ Lexes d rest more := by
  obtain ⟨p, rfl⟩ := htokens
  obtain ⟨ps, hps, hnodes⟩ := h p
  rw [hps.pieces_eq, List.filterMap_append]
  exact ⟨_, _, rfl, hnodes, _, rfl⟩

theorem Scans.lexes_item {text : List Char} {node : Node} {inside more : List Token} (h : Scans d text rest [node])
    (hnode : ∀ o body inverse, node ≠ .block o body inverse) (hinside : Derives inside [node])
    (htokens : Lexes d (text ++ rest) (inside ++ more)) : Lexes d rest more := by
  obtain ⟨first, others, heq, hfirst, hlexes⟩ := h.lexes htokens
  obtain ⟨one, rfl, -⟩ := hfirst.exists_reads hnode
  obtain ⟨other, rfl, -⟩ := hinside.exists_reads hnode
  cases heq
  exact hlexes

theorem Lexes.written {token : Token} (h : Lexes d rest (token :: tokens)) (hd : d.isProper)
    (hstart : d.start.toList <+: rest) :
    ∃ p span more reading, rest = span ++ more ∧ Scanner.Written d more span reading ∧ reading ≠ .text ∧
      ∀ kind content, reading = .tag kind content → token = .tag ⟨kind, content, p, d⟩ ∧ Lexes d more tokens := by
  obtain ⟨p, h⟩ := h
  cases hstep : Scanner.step ⟨rest, p, d⟩ with
  | finished =>
    rw [Scanner.pieces_of_finished hstep] at h
    cases h
  | fault fault =>
    rw [Scanner.pieces_of_fault hstep] at h
    cases h
  | piece piece next =>
    obtain ⟨hwritten, hrest, hemit⟩ := Scanner.written_of_step hstep
    have htext := Scanner.reading_ne_text hstep (Scanner.proper_iff.1 hd).1 hstart
    rw [Scanner.pieces_of_piece hstep] at h
    refine ⟨p, piece.span, next.rest, piece.reading, hrest, hwritten, htext, ?_⟩
    intro kind content hreading
    simp only [Scanner.emit, Step.piece.injEq] at hemit
    obtain ⟨hpiece, hnext⟩ := hemit
    rw [← hpiece, ← hnext, hreading] at h
    cases h
    exact ⟨rfl, _, rfl⟩

theorem Lexes.exists_tag {inner : List Char}
    (h : Lexes d (d.start.toList ++ (inner ++ (d.stop.toList ++ rest))) (.tag tag :: tokens)) (hd : d.isProper)
    (hreads : ∀ cs, cs <+: inner → ∃ kind content, readTag cs = .ok (.tag kind content))
    (hkind : tag.kind ≠ .triple) :
    ∃ cs tail, inner = cs ++ tail ∧ (∀ c ∈ tail.head?, c ∈ d.stop.toList.head?) ∧ Text.Clears d.stop.toList cs ∧
      (d.start = Delimiters.standard.start → (cs ++ d.stop.toList).head? ≠ some '\x7b') ∧
      readTag cs = .ok (.tag tag.kind tag.content) ∧ (tail = [] → Lexes d rest tokens) := by
  obtain ⟨p, span, more, reading, hrest, hwritten, htext, htokens⟩ := h.written hd (List.prefix_append ..)
  cases hwritten with
  | text => exact absurd rfl htext
  | @tag cs reading _ hclears hsingle hread =>
    rw [List.append_assoc, List.append_cancel_left_eq, List.append_assoc] at hrest
    obtain ⟨tail, rfl, hhead, hmore⟩ := hclears.exists_tail (Scanner.proper_iff.1 hd).2 hrest.symm
    obtain ⟨kind, content, htag⟩ := hreads cs (List.prefix_append ..)
    rw [hread] at htag
    cases htag
    obtain ⟨htoken, hlexes⟩ := htokens kind content rfl
    cases htoken
    refine ⟨cs, tail, rfl, hhead, hclears, hsingle, hread, ?_⟩
    intro hnil
    rwa [← hmore hnil]
  | triple =>
    -- the text of the tag begins with a brace beside the standard start delimiter
    obtain ⟨htoken, -⟩ := htokens _ _ rfl
    cases htoken
    exact absurd rfl hkind

theorem Lexes.exists_triple {inner : List Char} (hstart : d.start = Delimiters.standard.start)
    (h : Lexes d (d.start.toList ++ ('\x7b' :: inner ++ '\x7d' :: (d.stop.toList ++ rest))) (.tag tag :: tokens))
    (hd : d.isProper) :
    ∃ cs tail, inner = cs ++ tail ∧ (∀ c ∈ tail.head?, '\x7d' = c) ∧ Text.Clears ('\x7d' :: d.stop.toList) cs ∧
      tag.content = Text.trim cs ∧ (tail = [] → Lexes d rest tokens) := by
  obtain ⟨p, span, more, reading, hrest, hwritten, htext, htokens⟩ := h.written hd (List.prefix_append ..)
  cases hwritten with
  | text => exact absurd rfl htext
  | @tag cs reading _ _ hsingle =>
    rw [List.append_assoc, List.append_cancel_left_eq] at hrest
    have hhead := congrArg List.head? hrest
    rw [List.head?_append (l := cs ++ d.stop.toList),
      Option.or_of_isSome (by simp [(Scanner.proper_iff.1 hd).2])] at hhead
    exact absurd hhead.symm (hsingle hstart)
  | @triple cs _ hclears =>
    obtain ⟨htoken, hlexes⟩ := htokens _ _ rfl
    cases htoken
    rw [List.append_assoc, List.append_cancel_left_eq] at hrest
    have heq : cs ++ ('\x7d' :: d.stop.toList ++ more) = inner ++ ('\x7d' :: d.stop.toList ++ rest) := by
      simpa using hrest.symm
    obtain ⟨tail, rfl, hhead, hmore⟩ := hclears.exists_tail (by simp) heq
    refine ⟨cs, tail, rfl, by simpa using hhead, hclears, rfl, ?_⟩
    intro hnil
    rwa [← hmore hnil]

theorem Lexes.exists_sigil {kind : TagKind} {c : Char} (hsigil : kind.sigil? = some c) {content : List Char}
    (h : Lexes d (d.start.toList ++ (c :: content ++ d.stop.toList) ++ rest) (.tag tag :: tokens)) (hd : d.isProper)
    (hescaped : tag.kind ≠ .escaped) (htriple : tag.kind ≠ .triple) :
    ∃ cs tail, content = cs ++ tail ∧ (∀ x ∈ tail.head?, x ∈ d.stop.toList.head?) ∧ tag.kind = kind ∧
      tag.content = Text.trim cs ∧ (tail = [] → Text.Clears d.stop.toList (c :: content) ∧ Lexes d rest tokens) := by
  rw [List.append_assoc, List.append_assoc] at h
  have hreads : ∀ cs, cs <+: c :: content → ∃ kind content, readTag cs = .ok (.tag kind content) := by
    intro cs hcs
    cases cs with
    | nil => exact ⟨_, _, rfl⟩
    | cons x cs =>
      obtain ⟨rfl, -⟩ := List.cons_prefix_cons.1 hcs
      exact ⟨_, _, readTag_sigil hsigil cs⟩
  obtain ⟨cs, tail, hinner, hhead, hclears, -, hread, hlexes⟩ := h.exists_tag hd hreads htriple
  cases cs with
  | nil =>
    -- the tag ends at once, and would be one without a character for its kind
    have hempty : readTag [] = .ok (.tag .escaped []) := rfl
    rw [hempty] at hread
    simp only [Except.ok.injEq, Reading.tag.injEq] at hread
    exact absurd hread.1.symm hescaped
  | cons x cs =>
    rw [List.cons_append, List.cons.injEq] at hinner
    obtain ⟨rfl, rfl⟩ := hinner
    rw [readTag_sigil hsigil] at hread
    simp only [Except.ok.injEq, Reading.tag.injEq] at hread
    refine ⟨cs, tail, rfl, hhead, hread.1.symm, hread.2.symm, ?_⟩
    rintro rfl
    rw [List.append_nil]
    exact ⟨hclears, hlexes rfl⟩

theorem Lexes.inclusion {path : String} (hsolid : ∀ c ∈ path.toList, Text.isBlank c = false)
    (h : Lexes d (d.start.toList ++ ('>' :: path.toList ++ d.stop.toList) ++ rest) (.tag tag :: tokens))
    (hd : d.isProper) (hread : Token.Reads (.tag tag) (.inclusion path)) :
    Text.Clears d.stop.toList ('>' :: path.toList) ∧ Lexes d rest tokens := by
  have hsigil : TagKind.sigil? .inclusion = some '>' := rfl
  cases hread with
  | @inclusion _ word more hkind hwords =>
    obtain ⟨cs, tail, hpath, -, -, hcontent, hclears⟩ :=
      h.exists_sigil hsigil hd (by simp [hkind]) (by simp [hkind])
    rw [String.toList_ofList] at hpath hsolid hclears ⊢
    subst hpath
    have hcs : ∀ c ∈ cs, Text.isBlank c = false := fun c hc => hsolid c (List.mem_append_left _ hc)
    have htrim : Text.trim cs = cs :=
      Text.trim_eq_self (fun c hc => hcs c (List.mem_of_mem_head? hc)) (fun c hc => hcs c (List.mem_of_getLast? hc))
    rw [hcontent, htrim] at hwords
    have hne : cs ≠ [] := by
      rintro rfl
      cases hwords
    rw [Text.words_eq_singleton hne hcs, List.cons.injEq] at hwords
    exact hclears (List.append_right_eq_self.1 hwords.1.symm)

theorem Lexes.closing {name : String}
    (h : Lexes d (d.start.toList ++ ('/' :: name.toList ++ d.stop.toList) ++ rest) (.tag tag :: tokens))
    (hd : d.isProper) (hcloses : tag.Closes name) :
    Text.Clears d.stop.toList ('/' :: name.toList) ∧ Lexes d rest tokens := by
  have hsigil : TagKind.sigil? .closing = some '/' := rfl
  obtain ⟨cs, tail, hname, -, -, hcontent, hclears⟩ :=
    h.exists_sigil hsigil hd (by simp [hcloses.kind]) (by simp [hcloses.kind])
  rw [hcloses.content, hname] at hcontent
  -- the tag says as many characters as the name has, so none is left behind it
  have hlength := congrArg List.length hcontent
  have htrim := (Text.trim_infix cs).length_le
  rw [List.length_append] at hlength
  apply hclears
  rw [← List.length_eq_zero_iff]
  omega

theorem Lexes.of_sigil {kind : TagKind} {c : Char} (hsigil : kind.sigil? = some c) {call : Call} (hcall : call.IsRead)
    (h : Lexes d (d.start.toList ++ (c :: call.text.toList ++ d.stop.toList) ++ rest) (.tag tag :: tokens))
    (hd : d.isProper) (hends : d.EndsNumbers) (hescaped : tag.kind ≠ .escaped) (htriple : tag.kind ≠ .triple)
    (hread : readCall tag.content = .ok call) :
    call.Faithful ∧ Text.Clears d.stop.toList (c :: call.text.toList) ∧ Lexes d rest tokens := by
  obtain ⟨cs, tail, htext, hhead, -, hcontent, hclears⟩ := h.exists_sigil hsigil hd hescaped htriple
  rw [hcontent] at hread
  obtain ⟨rfl, hfaithful⟩ := hcall.faithful_of_trim hread htext.symm fun c hc => hends c (hhead c hc)
  exact ⟨hfaithful, hclears rfl⟩

theorem Lexes.of_escaped {call : Call} (hcall : call.IsRead) (hmarked : ∀ c ∈ call.name.toList.head?, c ∉ sigils)
    (h : Lexes d (d.start.toList ++ (call.text.toList ++ (d.stop.toList ++ rest))) (.tag tag :: tokens))
    (hd : d.isProper) (hends : d.EndsNumbers) (htriple : tag.kind ≠ .triple)
    (hread : readCall tag.content = .ok call) :
    call.Faithful ∧ call.Clear d .html ∧ Lexes d rest tokens := by
  have hescaped (cs : List Char) (hcs : cs <+: call.text.toList) : readTag cs = .ok (.tag .escaped (Text.trim cs)) := by
    apply readTag_escaped
    cases cs with
    | nil => simp [Text.trim, Text.trimStart, Text.trimEnd]
    | cons c cs =>
      have hfirst : c ∈ call.name.toList.head? := by
        obtain ⟨tail, htail⟩ := hcs
        exact hcall.text_head c (by rw [← htail]; rfl)
      rw [Text.trim_cons (hcall.name_whole.head_not_blank c hfirst)]
      simpa using hmarked c hfirst
  obtain ⟨cs, tail, htext, hhead, hclears, hsingle, htag, hlexes⟩ :=
    h.exists_tag hd (fun cs hcs => ⟨_, _, hescaped cs hcs⟩) htriple
  rw [hescaped cs ⟨tail, htext.symm⟩] at htag
  simp only [Except.ok.injEq, Reading.tag.injEq] at htag
  rw [← htag.2] at hread
  obtain ⟨rfl, hfaithful⟩ := hcall.faithful_of_trim hread htext.symm fun c hc => hends c (hhead c hc)
  rw [List.append_nil] at htext
  subst htext
  refine ⟨hfaithful, ⟨hclears, ?_⟩, hlexes rfl⟩
  intro hstart hbrace
  apply hsingle hstart
  rw [List.head?_append, hbrace]
  rfl

theorem Lexes.of_triple {call : Call} (hcall : call.IsRead) (hstart : d.start = Delimiters.standard.start)
    (h : Lexes d (d.start.toList ++ ('\x7b' :: call.text.toList ++ '\x7d' :: (d.stop.toList ++ rest)))
      (.tag tag :: tokens)) (hd : d.isProper) (hread : readCall tag.content = .ok call) :
    call.Faithful ∧ Text.Clears ('\x7d' :: d.stop.toList) call.text.toList ∧ Lexes d rest tokens := by
  have hbrace : ¬Number.IsNumeral '\x7d' := by decide
  obtain ⟨cs, tail, htext, hhead, hclears, hcontent, hlexes⟩ := h.exists_triple hstart hd
  rw [hcontent] at hread
  obtain ⟨rfl, hfaithful⟩ := hcall.faithful_of_trim hread htext.symm fun c hc => hhead c hc ▸ hbrace
  rw [htext, List.append_nil]
  exact ⟨hfaithful, hclears, hlexes rfl⟩

theorem Lexes.of_variable {call : Call} {escape : Escape} (hcall : call.IsRead) (hmarked : call.Marked d escape)
    (h : Lexes d ((call.variableText escape d).toList ++ rest) (.tag tag :: tokens)) (hd : d.isProper)
    (hends : d.EndsNumbers) (hkind : tag.kind.escape? = some escape) (hread : readCall tag.content = .ok call) :
    call.Faithful ∧ call.Clear d escape ∧ Lexes d rest tokens := by
  cases escape with
  | html =>
    have htext : (call.variableText .html d).toList ++ rest =
        d.start.toList ++ (call.text.toList ++ (d.stop.toList ++ rest)) := by
      simp [Call.variableText]
    rw [htext] at h
    exact h.of_escaped hcall hmarked.2 hd hends (by simp [TagKind.eq_escaped hkind]) hread
  | triple =>
    have hstart : d.start = Delimiters.standard.start := hmarked
    have htext : (call.variableText .triple d).toList ++ rest =
        d.start.toList ++ ('\x7b' :: call.text.toList ++ '\x7d' :: (d.stop.toList ++ rest)) := by
      simp [Call.variableText, hstart]
    rw [htext] at h
    exact h.of_triple hcall hstart hd hread
  | ampersand =>
    have hsigil : TagKind.sigil? .ampersand = some '&' := rfl
    have htext : (call.variableText .ampersand d).toList =
        d.start.toList ++ ('&' :: call.text.toList ++ d.stop.toList) := by
      simp [Call.variableText]
    rw [htext] at h
    have hampersand : tag.kind = .ampersand := TagKind.eq_ampersand hkind
    exact h.of_sigil hsigil hcall hd hends (by simp [hampersand]) (by simp [hampersand]) hread

theorem Lexes.of_opening {o : Opening} (hcall : o.call.IsRead)
    (h : Lexes d (d.start.toList ++ (o.marker :: o.call.text.toList ++ d.stop.toList) ++ rest) (.tag tag :: tokens))
    (hd : d.isProper) (hends : d.EndsNumbers) (hopens : tag.Opens o) :
    o.call.Faithful ∧ Text.Clears d.stop.toList (o.marker :: o.call.text.toList) ∧ Lexes d rest tokens := by
  have hescaped : tag.kind ≠ .escaped := by
    rcases hopens.kind with ⟨hkind, -⟩ | ⟨hkind, -⟩ <;> simp [hkind]
  obtain ⟨kind, hsigil⟩ : ∃ kind : TagKind, kind.sigil? = some o.marker := by
    cases hinverted : o.inverted with
    | false => exact ⟨.opening, by simp [Opening.marker, hinverted, TagKind.sigil?]⟩
    | true => exact ⟨.inverted, by simp [Opening.marker, hinverted, TagKind.sigil?]⟩
  exact h.of_sigil hsigil hcall hd hends hescaped hopens.kind_ne_triple hopens.call

mutual

theorem Node.Scanned.faithful (hd : d.isProper) (hends : d.EndsNumbers) : ∀ {node : Node}, node.Scanned d →
    ∀ {rest : List Char} {inside more : List Token}, (node.isLiteral → AtTag d rest) → Derives inside [node] →
    Lexes d ((node.textWith d).toList ++ rest) (inside ++ more) → node.Faithful d ∧ Lexes d rest more
  | .literal text, hscanned, rest, inside, more, hrest, hderives, h => by
    have hscans := scans_literal hd hscanned.1 hscanned.2 (hrest rfl)
    exact ⟨trivial, hscans.lexes_item (by simp) hderives h⟩
  | .comment text, hscanned, rest, inside, more, _, hderives, h => by
    have htext : (Node.textWith d (.comment text)).toList =
        d.start.toList ++ ('!' :: text.toList ++ d.stop.toList) := by
      simp [Node.textWith]
    rw [htext] at h
    exact ⟨trivial, (scans_comment hd hscanned rest).lexes_item (by simp) hderives h⟩
  | .variable call escape, hscanned, rest, inside, more, _, hderives, h => by
    obtain ⟨token, rfl, hitem⟩ := hderives.exists_reads (by simp)
    cases hitem with
    | value hkind hread =>
      obtain ⟨hfaithful, hclear, hlexes⟩ := h.of_variable hscanned.1 hscanned.2 hd hends hkind hread
      exact ⟨⟨hfaithful, hclear⟩, hlexes⟩
  | .inclusion path, hscanned, rest, inside, more, _, hderives, h => by
    have htext : (Node.textWith d (.inclusion path)).toList =
        d.start.toList ++ ('>' :: path.toList ++ d.stop.toList) := by
      simp [Node.textWith]
    rw [htext] at h
    obtain ⟨token, rfl, hitem⟩ := hderives.exists_reads (by simp)
    cases token with
    | text => cases hitem
    | tag tag => exact h.inclusion hscanned.2 hd hitem
  | .block opening (some body) inverse, hscanned, rest, inside, more, _, hderives, h => by
    obtain ⟨hcall, -, rfl, hbody⟩ := hscanned
    rw [Node.textWith, Node.toList_wrap, List.append_assoc] at h
    cases hderives with
    | item hitem => cases hitem
    | @block first last _ inside _ _ _ hfirst hinside hlast hnil =>
      cases hnil
      rw [List.cons_append, List.cons_append] at h
      -- each of the two tags ends where it is meant to, and so does the body between them
      obtain ⟨hargs, hopens, hinner⟩ := h.of_opening hcall hd hends hfirst
      have hinner : Lexes d ((Fragment.textWith d body).toList ++
          (d.start.toList ++ ('/' :: opening.call.name.toList ++ d.stop.toList) ++ rest))
          (inside ++ .tag last :: more) := by
        simpa using hinner
      have htag : AtTag d (d.start.toList ++ ('/' :: opening.call.name.toList ++ d.stop.toList) ++ rest) := by
        rw [List.append_assoc]
        exact .inr (List.prefix_append ..)
      obtain ⟨hfaithful, hclosing⟩ := Fragment.Scanned.faithful hd hends hbody htag hinside hinner
      obtain ⟨hcloses, hlexes⟩ := hclosing.closing hd hlast
      exact ⟨⟨⟨hargs, hopens, hcloses⟩, hfaithful⟩, hlexes⟩

theorem Fragment.Scanned.faithful (hd : d.isProper) (hends : d.EndsNumbers) : ∀ {nodes : List Node},
    Fragment.Scanned d nodes → ∀ {rest : List Char} {inside more : List Token}, AtTag d rest → Derives inside nodes →
    Lexes d ((Fragment.textWith d nodes).toList ++ rest) (inside ++ more) →
    Fragment.Faithful d nodes ∧ Lexes d rest more
  | [], _, rest, inside, more, _, hderives, h => by
    cases hderives
    exact ⟨trivial, by simpa [Fragment.textWith] using h⟩
  | node :: nodes, hscanned, rest, inside, more, hrest, hderives, h => by
    obtain ⟨hnode, hseparated, hnodes⟩ := hscanned
    obtain ⟨first, others, rfl, hfirst, hothers⟩ := hderives.uncons
    rw [Fragment.textWith, String.toList_append, List.append_assoc, List.append_assoc] at h
    obtain ⟨hfaithful, hlexes⟩ :=
      Node.Scanned.faithful hd hends hnode (fun hliteral => atTag_textWith (hseparated hliteral) hrest) hfirst h
    obtain ⟨hfaithfuls, hlast⟩ := Fragment.Scanned.faithful hd hends hnodes hrest hothers hlexes
    exact ⟨⟨hfaithful, hfaithfuls⟩, hlast⟩

end

end Source

/--
A tree of a source is read back from its text only if it is faithful.
-/
theorem Fragment.Scanned.faithful_of_parse {d : Delimiters} (hends : d.EndsNumbers) {f : Fragment}
    (hscanned : Fragment.Scanned d f) (h : parse (Fragment.textWith d f) d = .ok f) : Fragment.Faithful d f := by
  obtain ⟨hd, hderives⟩ := derives_of_parse h
  generalize htokens : (Scanner.start (Fragment.textWith d f).toList d).pieces.1.filterMap Piece.token? = tokens
    at hderives
  have hlexes : Lexes d ((Fragment.textWith d f).toList ++ []) (tokens ++ []) := by
    rw [List.append_nil, List.append_nil]
    exact ⟨.first, htokens⟩
  exact (Fragment.Scanned.faithful hd hends hscanned (.inl rfl) hderives hlexes).1

end Mustache
