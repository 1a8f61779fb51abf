import Mustache.Proofs.Faults
import Mustache.Proofs.Origin
import Mustache.Proofs.Partition
import Mustache.Proofs.Parts
import Mustache.Template

/-!
This module contains what the trees of sources are like at every depth. The main statement is that their sections have
bodies, and that neither names nor texts in them are empty.
-/

namespace Mustache

open Source

def IsQuoted (text : String) : Prop :=
  ∃ q inner, isQuote q ∧ text.toList = q :: (inner ++ [q])

structure Call.WellFormed (call : Call) : Prop where
  name_ne : call.name ≠ ""
  keys_ne : ∀ key ∈ call.hash.keys, key ≠ ""
  keys_nodup : call.hash.keys.Nodup

/--
A node that is put together as it has to be, whatever is inside of it.
-/
def Node.WellFormed : Node → Prop
  | .literal text => text ≠ ""
  | .comment _ => True
  | .variable call _ => call.WellFormed
  | .inclusion path => path ≠ ""
  | .block opening body _ =>
    body.isSome ∧ opening.call.WellFormed ∧ ¬IsQuoted opening.call.name ∧ opening.delimiters.isProper

namespace Source

theorem not_isQuoted {text : String} (h : unquote? text.toList = none) : ¬IsQuoted text := by
  rintro ⟨q, inner, hq, htext⟩
  rw [htext] at h
  simp [unquote?, hq] at h

theorem readCall_wellFormed {content : List Char} {call : Call} (h : readCall content = .ok call) :
    call.WellFormed ∧ ¬IsQuoted call.name := by
  have hread := Call.isRead_of_readCall h
  refine ⟨⟨readCall_name_ne h, ?_, call.hash.keys_nodup⟩, not_isQuoted hread.name_unquoted⟩
  intro key hkey
  simpa using hread.keys_ne key hkey

def Token.Sound : Token → Prop
  | .text characters => characters ≠ []
  | .tag t => t.delimiters.isProper

theorem Scanner.pieces_sound {s : Scanner} (hs : s.delimiters.isProper) :
    ∀ p ∈ s.pieces.1, ∀ token ∈ p.token?, token.Sound := by
  induction s using Scanner.pieces.induct with
  | case1 s hstep =>
    rw [pieces_of_finished hstep]
    rintro _ ⟨⟩
  | case2 s fault hstep =>
    rw [pieces_of_fault hstep]
    rintro _ ⟨⟩
  | case3 s piece next hstep _ _ _ _ ih =>
    rw [pieces_of_piece hstep, List.forall_mem_cons]
    refine ⟨?_, ih (step_proper hstep hs)⟩
    intro token htoken
    unfold Piece.token? at htoken
    split at htoken
    . cases htoken
      exact span_ne_nil hstep
    . cases htoken
      change piece.delimiters.isProper
      rwa [(piece_delimiters hstep).1]
    . cases htoken

theorem Token.Reads.parts {token : Token} {node : Node} (h : token.Reads node) : node.parts = [node] := by
  cases h <;> rfl

theorem Token.Reads.wellFormed {token : Token} {node : Node} (h : token.Reads node) (htoken : token.Sound) :
    node.WellFormed := by
  cases h with
  | literal characters =>
    change characters ≠ [] at htoken
    simpa [Node.WellFormed] using htoken
  | comment => trivial
  | inclusion _ hpath =>
    have hne := (Text.mem_words (by rw [hpath]; exact List.mem_cons_self)).1
    simpa [Node.WellFormed] using hne
  | value _ hcall => exact (readCall_wellFormed hcall).1

theorem Tag.Opens.wellFormed {tag : Tag} {opening : Opening} (h : tag.Opens opening) (htag : tag.delimiters.isProper)
    (body : Fragment) (inverse : Option Fragment) : (Node.block opening (some body) inverse).WellFormed := by
  obtain ⟨hcall, hname⟩ := readCall_wellFormed h.call
  refine ⟨rfl, hcall, hname, ?_⟩
  rwa [h.delimiters]

/--
What holds of each node that one of the tokens stands for, and of each section that one of them opens, holds of all
parts of what is derived, one case for each rule of the grammar.
-/
theorem Derives.forall_parts {Known : Token → Prop} {P : Node → Prop}
    (hreads : ∀ {token : Token} {node : Node}, Known token → token.Reads node → P node)
    (hopens : ∀ {tag : Tag} {opening : Opening}, Known (.tag tag) → tag.Opens opening → ∀ body inverse,
      P (.block opening (some body) inverse))
    {tokens : List Token} {nodes : Fragment} (h : Derives tokens nodes) (htokens : ∀ token ∈ tokens, Known token) :
    ∀ node ∈ Fragment.parts nodes, P node := by
  induction h with
  | nil => rintro _ ⟨⟩
  | item hitem _ ih =>
    obtain ⟨htoken, htokens⟩ := List.forall_mem_cons.1 htokens
    rw [Fragment.parts, hitem.parts]
    exact List.forall_mem_cons.2 ⟨hreads htoken hitem, ih htokens⟩
  | block hfirst _ _ _ ihbody ihrest =>
    simp only [List.cons_append, List.forall_mem_cons, List.forall_mem_append] at htokens
    obtain ⟨htag, hinside, -, hrest⟩ := htokens
    simp only [Fragment.parts, Node.parts, Fragment.anyParts, List.cons_append, List.append_nil,
      List.forall_mem_cons, List.forall_mem_append]
    exact ⟨hopens htag hfirst _ _, ihbody hinside, ihrest hrest⟩
  | blockElse hfirst _ _ _ _ _ ihbody ihinverse ihrest =>
    simp only [List.cons_append, List.append_assoc, List.forall_mem_cons, List.forall_mem_append] at htokens
    obtain ⟨htag, hinside, -, hbehind, -, hrest⟩ := htokens
    simp only [Fragment.parts, Node.parts, Fragment.anyParts, List.cons_append, List.append_assoc,
      List.forall_mem_cons, List.forall_mem_append]
    exact ⟨hopens htag hfirst _ _, ihbody hinside, ihinverse hbehind, ihrest hrest⟩

end Source

theorem wellFormed_of_parse {source : String} {d : Delimiters} {f : Fragment} (h : parse source d = .ok f) :
    ∀ node ∈ Fragment.parts f, node.WellFormed := by
  obtain ⟨hd, hderives⟩ := derives_of_parse h
  apply Derives.forall_parts (fun hsound hreads => hreads.wellFormed hsound)
    (fun hsound hopens => hopens.wellFormed hsound) hderives
  intro token htoken
  obtain ⟨p, hp, hread⟩ := List.mem_filterMap.1 htoken
  exact Scanner.pieces_sound hd p hp token hread

theorem Template.parse_eq_ok {d : Delimiters} {source : String} {name : Option String} {template : Template}
    (h : compile d source name = .ok template) : parse source d = .ok template.fragment := by
  unfold compile at h
  split at h
  next hparse =>
    cases h
    exact hparse
  . cases h

end Mustache
