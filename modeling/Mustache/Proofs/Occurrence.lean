import Mustache.Proofs.Exact

/-!
This module contains the sections of a source. The main statement is that each section of the tree of a source stands
in the source, between the two tags that it is read from.
-/

namespace Mustache

namespace Source

namespace Scanner

theorem Written.proper {d : Delimiters} {rest span content : List Char} {kind : TagKind}
    (h : Written d rest span (.tag kind content)) (hkind : kind ≠ .triple) : d.isProper := by
  cases h with
  | tag hd => exact hd
  | triple => exact absurd rfl hkind

end Scanner

/--
A section of a source: between its two tags there are the pieces `inside`, which stand for its body.
-/
structure HasSection (source : String) (d : Delimiters) (opening : Opening) (inside : List Piece) (body : Fragment) :
    Prop where
  placed : ∃ before first last after,
    (Scanner.start source.toList d).pieces.1 = before ++ first :: (inside ++ last :: after) ∧
    (∃ tag, first.token? = some (.tag tag) ∧ tag.Opens opening) ∧
    (∃ tag, last.token? = some (.tag tag) ∧ tag.Closes opening.call.name)
  derives : Derives (inside.filterMap Piece.token?) body

theorem HasSection.scanned {source : String} {d : Delimiters} {opening : Opening} {inside : List Piece}
    {body : Fragment} (h : HasSection source d opening inside body)
    (hkept : ∀ p ∈ inside, ∀ d, p.reading ≠ .change d) (helse : Fragment.ElseFree body) :
    opening.delimiters.isProper ∧ Fragment.Scanned opening.delimiters body := by
  obtain ⟨⟨before, first, last, after, hpieces, ⟨tag, htag, hopens⟩, -⟩, hderives⟩ := h
  obtain ⟨s, -, hs⟩ := Scanner.yields_of_pieces hpieces
  obtain ⟨next, hstep, hnext⟩ := Scanner.step_of_pieces hs
  obtain ⟨mid, hyields, hmid⟩ := Scanner.yields_of_pieces hnext
  obtain ⟨behind, hlast, -⟩ := Scanner.step_of_pieces hmid
  obtain ⟨hreading, -, htagdelimiters⟩ := Piece.token?_eq_tag htag
  obtain ⟨hfirst, hafter⟩ := Scanner.piece_delimiters hstep
  -- inside of the section the delimiters of its opening tag are in force
  have hdelimiters : next.delimiters = opening.delimiters := by
    rw [hafter, Piece.delimitersAfter, hreading, hopens.delimiters, htagdelimiters]
  have hproper : next.delimiters.isProper := by
    have hwritten := (Scanner.written_of_step hstep).1
    rw [hreading] at hwritten
    rw [hafter, Piece.delimitersAfter, hreading, hfirst]
    exact hwritten.proper hopens.kind_ne_triple
  obtain ⟨-, hscanned, hseparated, -⟩ := hyields.scanned (Scanner.rest_ne_of_step hlast) hkept
  rw [← hdelimiters]
  exact ⟨hproper, hderives.scanned hscanned hseparated helse⟩

/--
The body of a section is read back from its text if it is faithful, and only then, unless the delimiters change inside
of it or the stop delimiter begins like the rest of a number.
-/
theorem HasSection.parse_body {source : String} {d : Delimiters} {opening : Opening} {inside : List Piece}
    {body : Fragment} (h : HasSection source d opening inside body)
    (hkept : ∀ p ∈ inside, ∀ d, p.reading ≠ .change d) (helse : Fragment.ElseFree body) :
    (Fragment.Faithful opening.delimiters body →
      parse (Fragment.textWith opening.delimiters body) opening.delimiters = .ok body) ∧
    (opening.delimiters.EndsNumbers →
      parse (Fragment.textWith opening.delimiters body) opening.delimiters = .ok body →
      Fragment.Faithful opening.delimiters body) := by
  obtain ⟨hproper, hscanned⟩ := h.scanned hkept helse
  refine ⟨?_, fun hends hparse => hscanned.faithful_of_parse hends hparse⟩
  intro hfaithful
  obtain ⟨hlegible, hnormal⟩ := hfaithful.legible hscanned
  rw [hlegible.parse_textWith hproper, hnormal]

end Source

/--
A section without inverse that is a part of a tree, at any depth.
-/
inductive Fragment.Has (opening : Opening) (body : Fragment) : Fragment → Prop where
  | here (nodes : Fragment) : Has opening body (.block opening (some body) none :: nodes)
  | inBody {inner : Fragment} (o : Opening) (inverse : Option Fragment) (nodes : Fragment)
    (h : Has opening body inner) : Has opening body (.block o (some inner) inverse :: nodes)
  | inInverse {inner : Fragment} (o : Opening) (outer : Option Fragment) (nodes : Fragment)
    (h : Has opening body inner) : Has opening body (.block o outer (some inner) :: nodes)
  | later {nodes : Fragment} (node : Node) (h : Has opening body nodes) : Has opening body (node :: nodes)

namespace Source

variable {opening : Opening} {body : Fragment}

def SectionTokens (opening : Opening) (body : Fragment) (tokens : List Token) : Prop :=
  ∃ before first inside last after, tokens = before ++ .tag first :: (inside ++ .tag last :: after) ∧
    first.Opens opening ∧ Derives inside body ∧ last.Closes opening.call.name

theorem SectionTokens.around {tokens all : List Token} (h : SectionTokens opening body tokens)
    (front back : List Token) (hall : all = front ++ tokens ++ back) : SectionTokens opening body all := by
  obtain ⟨before, first, inside, last, after, rfl, hsection⟩ := h
  exact ⟨front ++ before, first, inside, last, after ++ back, by simp [hall], hsection⟩

theorem Derives.sectionTokens {tokens : List Token} {nodes : Fragment} (h : Derives tokens nodes)
    (hhas : Fragment.Has opening body nodes) : SectionTokens opening body tokens := by
  induction h with
  | nil => cases hhas
  | @item token node tokens nodes hitem _ ih =>
    cases hhas with
    | later _ hhas => exact (ih hhas).around [token] [] (by simp)
    | here => cases hitem
    | inBody => cases hitem
    | inInverse => cases hitem
  | @block first last o inside tokens inner nodes hfirst hinner hlast _ ihinner ihrest =>
    cases hhas with
    | here => exact ⟨[], first, inside, last, tokens, by simp, hfirst, hinner, hlast⟩
    | inBody _ _ _ hhas => exact (ihinner hhas).around [.tag first] (.tag last :: tokens) (by simp)
    | later _ hhas => exact (ihrest hhas).around (.tag first :: inside ++ [.tag last]) [] (by simp)
  | @blockElse first middle last o inside behind tokens inner inverse nodes _ _ _ _ _ _ ihinner ihinverse ihrest =>
    cases hhas with
    | inBody _ _ _ hhas =>
      exact (ihinner hhas).around [.tag first] (.tag middle :: behind ++ .tag last :: tokens) (by simp)
    | inInverse _ _ _ hhas =>
      exact (ihinverse hhas).around (.tag first :: inside ++ [.tag middle]) (.tag last :: tokens) (by simp)
    | later _ hhas =>
      exact (ihrest hhas).around (.tag first :: inside ++ .tag middle :: behind ++ [.tag last]) [] (by simp)

theorem hasSection_of_parse {source : String} {d : Delimiters} {f : Fragment} (hparse : parse source d = .ok f)
    (hhas : Fragment.Has opening body f) : ∃ inside, HasSection source d opening inside body := by
  obtain ⟨-, hderives⟩ := derives_of_parse hparse
  obtain ⟨before, opener, inner, closer, after, htokens, hopens, hinner, hcloses⟩ := hderives.sectionTokens hhas
  obtain ⟨front, back, hpieces, -, hback⟩ := List.filterMap_eq_append_iff.1 htokens
  obtain ⟨skipped, first, others, rfl, -, hfirst, hothers⟩ := List.filterMap_eq_cons_iff.1 hback
  obtain ⟨inside, rest, rfl, hinside, hrest⟩ := List.filterMap_eq_append_iff.1 hothers
  obtain ⟨changes, last, tail, rfl, hchanges, hlast, -⟩ := List.filterMap_eq_cons_iff.1 hrest
  refine ⟨inside ++ changes, ⟨front ++ skipped, first, last, tail, ?_, ?_, ?_⟩, ?_⟩
  . simp [hpieces]
  . exact ⟨opener, hfirst, hopens⟩
  . exact ⟨closer, hlast, hcloses⟩
  . rw [List.filterMap_append, hinside, List.filterMap_eq_nil_iff.2 hchanges, List.append_nil]
    exact hinner

end Source

end Mustache
