import Mustache.Proofs.Origin
import Mustache.Proofs.RoundTrip

/-!
This module contains when the text of a tree says what its source said. The main statement is that the tree between the
tags of a section is read back from its text as it is, if each of its arguments is and none of its tags runs into the
delimiters.
-/

namespace Mustache

open Source

/--
An argument that is read back if it was read from a word. A string is written in double quotes, also if it came in
single ones, and has to be one word then. A number with a point or an exponent has to be in range.
-/
def Param.Faithful : Param → Prop
  | .str text => IsWhole (Param.str text).text.toList
  | .float x => readParam (Param.float x).text.toList = .float x
  | .path _ | .int _ | .bool _ | .null => True

structure Call.Faithful (call : Call) : Prop where
  params : ∀ param ∈ call.params, param.Faithful
  values : ∀ entry ∈ call.hash, entry.2.Faithful

/--
A variable whose tag ends where it is meant to, and is not taken for one with three braces.
-/
def Call.Clear (call : Call) (d : Delimiters) : Escape → Prop
  | .html =>
    Text.Clears d.stop.toList call.text.toList ∧
      (d.start = Delimiters.standard.start → call.text.toList.head? ≠ some '\x7b')
  | .triple => Text.Clears ('\x7d' :: d.stop.toList) call.text.toList
  | .ampersand => Text.Clears d.stop.toList ('&' :: call.text.toList)

structure Opening.Faithful (d : Delimiters) (o : Opening) : Prop where
  call : o.call.Faithful
  opens : Text.Clears d.stop.toList (o.marker :: o.call.text.toList)
  closes : Text.Clears d.stop.toList ('/' :: o.call.name.toList)

mutual

def Node.Faithful (d : Delimiters) : Node → Prop
  | .literal _ | .comment _ => True
  | .variable call escape => call.Faithful ∧ call.Clear d escape
  | .inclusion path => Text.Clears d.stop.toList ('>' :: path.toList)
  | .block opening none _ => opening.Faithful d
  | .block opening (some body) _ => opening.Faithful d ∧ Fragment.Faithful d body

def Fragment.Faithful (d : Delimiters) : List Node → Prop
  | [] => True
  | node :: nodes => node.Faithful d ∧ Fragment.Faithful d nodes

end

mutual

def Node.ElseFree : Node → Prop
  | .literal _ | .comment _ | .variable .. | .inclusion _ => True
  | .block _ none inverse => inverse = none
  | .block _ (some body) inverse => inverse = none ∧ Fragment.ElseFree body

def Fragment.ElseFree : List Node → Prop
  | [] => True
  | node :: nodes => node.ElseFree ∧ Fragment.ElseFree nodes

end

def Call.Marked (call : Call) (d : Delimiters) : Escape → Prop
  | .html => call.text ≠ "else" ∧ ∀ c ∈ call.name.toList.head?, c ∉ sigils
  | .triple => d.start = Delimiters.standard.start
  | .ampersand => True

mutual

def Node.Scanned (d : Delimiters) : Node → Prop
  | .literal text => text.toList ≠ [] ∧ Text.Clears d.start.toList text.toList
  | .comment text => Text.Clears d.stop.toList ('!' :: text.toList)
  | .variable call escape => call.IsRead ∧ call.Marked d escape
  | .inclusion path => path.toList ≠ [] ∧ ∀ c ∈ path.toList, Text.isBlank c = false
  | .block _ none _ => False
  | .block opening (some body) inverse =>
    opening.call.IsRead ∧ opening.delimiters = d ∧ inverse = none ∧ Fragment.Scanned d body

def Fragment.Scanned (d : Delimiters) : List Node → Prop
  | [] => True
  | node :: nodes =>
    node.Scanned d ∧ (node.isLiteral → ∀ next ∈ nodes.head?, next.isLiteral = false) ∧ Fragment.Scanned d nodes

end

namespace Param

variable {param : Param} {word : List Char}

theorem Faithful.legible (h : param.Faithful) (hword : IsWhole word) (hread : readParam word = param) :
    param.Legible := by
  cases param with
  | path text =>
    rw [← readParam_eq_path hread] at hword hread
    exact ⟨hword, hread⟩
  | str text => exact (positional_str_of_whole h).toLegible
  | int n => exact (positional_int n).toLegible
  | float x => exact (positional_float h).toLegible
  | bool b => exact (positional_bool b).toLegible
  | null => exact positional_null.toLegible

theorem Faithful.positional (h : param.Faithful) (hne : word ≠ []) (hword : IsWhole word)
    (hunnamed : hashPair? word = none) (hread : readParam word = param) : param.Positional := by
  cases param with
  | path text =>
    have hlegible := h.legible hword hread
    rw [← readParam_eq_path hread] at hne hunnamed
    exact ⟨hlegible, hne, hunnamed⟩
  | str text => exact positional_str_of_whole h
  | int n => exact positional_int n
  | float x => exact positional_float h
  | bool b => exact positional_bool b
  | null => exact positional_null

end Param

namespace Call

variable {call : Call} {d : Delimiters} {escape : Escape}

theorem Faithful.legible (h : call.Faithful) (hread : call.IsRead) : call.Legible where
  name_ne := hread.name_ne
  name_whole := hread.name_whole
  name_unquoted := hread.name_unquoted
  params := by
    intro param hparam
    obtain ⟨word, hne, hword, hunnamed, hread⟩ := hread.params param hparam
    exact (h.params param hparam).positional hne hword hunnamed hread
  keys_ne := hread.keys_ne
  keys := hread.keys
  values := by
    intro entry hentry
    obtain ⟨word, hword, hread⟩ := hread.values entry hentry
    exact (h.values entry hentry).legible hword hread

theorem Marked.fits (h : call.Marked d escape) (hcall : call.Legible) (hclear : call.Clear d escape) :
    call.Fits d escape := by
  cases escape with
  | html =>
    refine ⟨hclear.1, h.1, ?_, hclear.2⟩
    rw [hcall.head?_text]
    exact h.2
  | triple =>
    simp only [Marked] at h
    simp only [Fits, h, ↓reduceIte]
    exact hclear
  | ampersand => exact hclear

theorem marked_of_tag {tag : Tag} (htag : tag.Scanned d) (hkind : tag.kind.escape? = some escape)
    (hread : readCall tag.content = .ok call) (helse : ¬tag.IsElse) : call.Marked d escape := by
  cases escape with
  | html =>
    have hescaped := TagKind.eq_escaped hkind
    have hhead := htag.head hescaped
    have hblank : ∀ c ∈ tag.content.head?, Text.isBlank c = false := fun c hc => (hhead c hc).1
    constructor
    . -- a call that is written `else` has no arguments, so its tag was an `else` before
      intro hbad
      have hsolid : ' ' ∉ call.text.toList := by
        rw [hbad]
        decide
      obtain ⟨hparams, hhash, hname⟩ := text_eq_name hsolid
      have hcontent := content_eq_name hread hblank (htag.last hescaped) hparams hhash
      rw [← hname, hbad] at hcontent
      exact helse (.inl ⟨hescaped, hcontent⟩)
    . rw [head?_name hread hblank]
      exact fun c hc => (hhead c hc).2
  | triple => exact htag.triple (TagKind.eq_triple hkind)
  | ampersand => trivial

end Call

theorem Opening.Faithful.legible {d : Delimiters} {o : Opening} (h : o.Faithful d) (hread : o.call.IsRead) :
    o.Legible d where
  call := h.call.legible hread
  opens := h.opens
  closes := h.closes

theorem Call.Marked.normalized {call : Call} {d : Delimiters} {escape : Escape} (h : call.Marked d escape) :
    escape.normalized d = escape := by
  cases escape with
  | html => rfl
  | triple => exact if_pos h
  | ampersand => rfl

mutual

theorem Node.Faithful.legible {d : Delimiters} : ∀ {node : Node}, node.Faithful d → node.Scanned d →
    node.Legible d ∧ node.normalized d = node
  | .literal _, _, hread => ⟨hread, rfl⟩
  | .comment _, _, hread => ⟨hread, rfl⟩
  | .variable call _, h, hread => by
    have hcall := h.1.legible hread.1
    exact ⟨⟨hcall, hread.2.fits hcall h.2⟩, congrArg (Node.variable call) hread.2.normalized⟩
  | .inclusion _, h, hread => ⟨⟨hread.1, hread.2, h⟩, rfl⟩
  | .block opening (some body) inverse, h, hread => by
    obtain ⟨hcall, rfl, rfl, hbody⟩ := hread
    obtain ⟨hlegible, hnormal⟩ := Fragment.Faithful.legible h.2 hbody
    refine ⟨⟨h.1.legible hcall, hlegible⟩, ?_⟩
    rw [Node.normalized, hnormal]

theorem Fragment.Faithful.legible {d : Delimiters} : ∀ {nodes : List Node}, Fragment.Faithful d nodes →
    Fragment.Scanned d nodes → Fragment.Legible d nodes ∧ Fragment.normalized d nodes = nodes
  | [], _, _ => ⟨trivial, rfl⟩
  | node :: nodes, h, hread => by
    obtain ⟨hnode, hnormal⟩ := Node.Faithful.legible h.1 hread.1
    obtain ⟨hnodes, hnormals⟩ := Fragment.Faithful.legible h.2 hread.2.2
    refine ⟨⟨hnode, hread.2.1, hnodes⟩, ?_⟩
    rw [Fragment.normalized, hnormal, hnormals]

end

namespace Source

variable {d : Delimiters}

theorem Token.Reads.scanned {token : Token} {node : Node} (h : token.Reads node) (hscanned : token.Scanned d) :
    node.Scanned d := by
  cases h with
  | literal characters =>
    rw [Node.Scanned, String.toList_ofList]
    exact hscanned
  | comment hkind =>
    rw [Node.Scanned, String.toList_ofList]
    exact hscanned.comment hkind
  | @inclusion tag path more hkind hpath =>
    rw [Node.Scanned, String.toList_ofList]
    exact Text.mem_words (hpath ▸ List.mem_cons_self)
  | @value tag escape call hkind hcall helse =>
    exact ⟨Call.isRead_of_readCall hcall, Call.marked_of_tag hscanned hkind hcall helse⟩

theorem Token.Reads.isText {token : Token} {node : Node} (h : token.Reads node) : token.isText = node.isLiteral := by
  cases h <;> rfl

theorem Derives.head_isText {tokens : List Token} {nodes : Fragment} (h : Derives tokens nodes) {node : Node}
    (hnode : node ∈ nodes.head?) : ∃ token ∈ tokens.head?, token.isText = node.isLiteral := by
  cases h with
  | nil => cases hnode
  | item hitem =>
    cases hnode
    exact ⟨_, rfl, hitem.isText⟩
  | block =>
    cases hnode
    exact ⟨_, rfl, rfl⟩
  | blockElse =>
    cases hnode
    exact ⟨_, rfl, rfl⟩

theorem Derives.scanned {tokens : List Token} {nodes : Fragment} (h : Derives tokens nodes)
    (hscanned : ∀ token ∈ tokens, token.Scanned d) (hseparated : Separated tokens) (helse : Fragment.ElseFree nodes) :
    Fragment.Scanned d nodes := by
  induction h with
  | nil => trivial
  | @item token node tokens nodes hitem hrest ih =>
    have hnodes := ih (fun t ht => hscanned t (List.mem_cons_of_mem _ ht)) hseparated.tail helse.2
    refine ⟨hitem.scanned (hscanned _ List.mem_cons_self), ?_, hnodes⟩
    -- the scanner never finds two texts in a row
    intro hliteral next hnext
    obtain ⟨token, htoken, htext⟩ := hrest.head_isText hnext
    rw [← htext]
    exact hseparated.head (hitem.isText.trans hliteral) htoken
  | @block first last opening inside tokens body nodes hfirst _ _ _ ihbody ihrest =>
    have hinside := hseparated.middle [.tag first] inside (.tag last :: tokens) (by simp)
    have hafter := hseparated.middle (.tag first :: inside ++ [.tag last]) tokens [] (by simp)
    have hbody := ihbody (fun t ht => hscanned t (by simp [ht])) hinside helse.1.2
    have hnodes := ihrest (fun t ht => hscanned t (by simp [ht])) hafter helse.2
    have hopener : first.Scanned d := hscanned _ List.mem_cons_self
    refine ⟨⟨Call.isRead_of_readCall hfirst.call, hfirst.delimiters.trans hopener.delimiters, rfl, hbody⟩, ?_, hnodes⟩
    intro hliteral
    cases hliteral
  | blockElse => cases helse.1.1

end Source

end Mustache
