import Mustache.Proofs.Calls
import Mustache.Source.Parse

/-!
This module contains the grammar of token sequences. The main statement is that a tree is built from some tokens iff
the grammar derives it from them.
-/

namespace Mustache.Source

namespace Tag

def IsElse (tag : Tag) : Prop :=
  (tag.kind = .escaped ∧ tag.content = "else".toList) ∨ (tag.kind = .inverted ∧ tag.content = [])

instance (tag : Tag) : Decidable tag.IsElse :=
  inferInstanceAs (Decidable (_ ∨ _))

structure Opens (tag : Tag) (opening : Opening) : Prop where
  kind : (tag.kind = .opening ∧ opening.inverted = false) ∨
    (tag.kind = .inverted ∧ tag.content ≠ [] ∧ opening.inverted = true)
  call : readCall tag.content = .ok opening.call
  delimiters : opening.delimiters = tag.delimiters

structure Closes (tag : Tag) (name : String) : Prop where
  kind : tag.kind = .closing
  content : tag.content = name.toList

end Tag

def TagKind.escape? : TagKind → Option Escape
  | .escaped => some .html
  | .triple => some .triple
  | .ampersand => some .ampersand
  | _ => none

theorem TagKind.eq_escaped {kind : TagKind} (h : kind.escape? = some .html) : kind = .escaped := by
  cases kind <;> cases h
  rfl

theorem TagKind.eq_triple {kind : TagKind} (h : kind.escape? = some .triple) : kind = .triple := by
  cases kind <;> cases h
  rfl

theorem TagKind.eq_ampersand {kind : TagKind} (h : kind.escape? = some .ampersand) : kind = .ampersand := by
  cases kind <;> cases h
  rfl

inductive Token.Reads : Token → Node → Prop where
  | literal (characters : List Char) : Reads (.text characters) (.literal (String.ofList characters))
  | comment {tag : Tag} (hkind : tag.kind = .comment) :
    Reads (.tag tag) (.comment (String.ofList tag.content))
  | inclusion {tag : Tag} {path : List Char} {more : List (List Char)} (hkind : tag.kind = .inclusion)
    (hpath : Text.words tag.content = path :: more) : Reads (.tag tag) (.inclusion (String.ofList path))
  | value {tag : Tag} {escape : Escape} {call : Call} (hkind : tag.kind.escape? = some escape)
    (hcall : readCall tag.content = .ok call) (helse : ¬tag.IsElse) : Reads (.tag tag) (.variable call escape)

/--
A sequence of tokens and the nodes that it stands for. A section stands between the tags that open and close it, and
an `else` between those begins its inverse.
-/
inductive Derives : List Token → Fragment → Prop where
  | nil : Derives [] []
  | item {token : Token} {node : Node} {tokens : List Token} {nodes : Fragment} (hitem : token.Reads node)
    (hrest : Derives tokens nodes) : Derives (token :: tokens) (node :: nodes)
  | block {first last : Tag} {opening : Opening} {inside tokens : List Token} {body nodes : Fragment}
    (hfirst : first.Opens opening) (hbody : Derives inside body) (hlast : last.Closes opening.call.name)
    (hrest : Derives tokens nodes) :
    Derives (.tag first :: inside ++ .tag last :: tokens) (.block opening (some body) none :: nodes)
  | blockElse {first middle last : Tag} {opening : Opening} {inside behind tokens : List Token}
    {body inverse nodes : Fragment} (hfirst : first.Opens opening) (hbody : Derives inside body)
    (hmiddle : middle.IsElse) (hinverse : Derives behind inverse) (hlast : last.Closes opening.call.name)
    (hrest : Derives tokens nodes) :
    Derives (.tag first :: inside ++ .tag middle :: behind ++ .tag last :: tokens)
      (.block opening (some body) (some inverse) :: nodes)

theorem Derives.append {tokens more : List Token} {nodes others : Fragment} (h : Derives tokens nodes)
    (hmore : Derives more others) : Derives (tokens ++ more) (nodes ++ others) := by
  induction h with
  | nil => exact hmore
  | item hitem _ ih => exact .item hitem ih
  | block hfirst hbody hlast _ _ ih =>
    simp only [List.cons_append, List.append_assoc]
    exact .block hfirst hbody hlast ih
  | blockElse hfirst hbody hmiddle hinverse hlast _ _ _ ih =>
    have := Derives.blockElse hfirst hbody hmiddle hinverse hlast ih
    simpa only [List.cons_append, List.append_assoc] using this

theorem Derives.singleton {token : Token} {node : Node} (h : token.Reads node) : Derives [token] [node] :=
  .item h .nil

theorem isElse_iff {tag : Tag} : Builder.isElse tag = true ↔ tag.IsElse := by
  simp only [Builder.isElse, Tag.IsElse, Bool.or_eq_true, Bool.and_eq_true, beq_iff_eq, List.isEmpty_iff]
  exact Or.comm

theorem Tag.Opens.kind_ne_triple {tag : Tag} {opening : Opening} (h : tag.Opens opening) : tag.kind ≠ .triple := by
  rcases h.kind with ⟨hkind, -⟩ | ⟨hkind, -⟩ <;> simp [hkind]

theorem Tag.Opens.not_isElse {tag : Tag} {opening : Opening} (h : tag.Opens opening) : ¬tag.IsElse := by
  rintro (⟨hkind, -⟩ | ⟨hkind, hcontent⟩)
  . rcases h.kind with ⟨hk, -⟩ | ⟨hk, -⟩
    . rw [hkind] at hk
      cases hk
    . rw [hkind] at hk
      cases hk
  . rcases h.kind with ⟨hk, -⟩ | ⟨-, hne, -⟩
    . rw [hkind] at hk
      cases hk
    . exact hne hcontent

theorem Derives.uncons {tokens : List Token} {node : Node} {nodes : Fragment} (h : Derives tokens (node :: nodes)) :
    ∃ first others, tokens = first ++ others ∧ Derives first [node] ∧ Derives others nodes := by
  cases h with
  | @item token _ tokens _ hitem hrest => exact ⟨[token], tokens, rfl, .singleton hitem, hrest⟩
  | @block first last _ inside tokens _ _ hfirst hbody hlast hrest =>
    exact ⟨.tag first :: inside ++ [.tag last], tokens, by simp, .block hfirst hbody hlast .nil, hrest⟩
  | @blockElse first middle last _ inside behind tokens _ _ _ hfirst hbody hmiddle hinverse hlast hrest =>
    exact ⟨.tag first :: inside ++ .tag middle :: behind ++ [.tag last], tokens, by simp,
      .blockElse hfirst hbody hmiddle hinverse hlast .nil, hrest⟩

theorem Derives.exists_reads {tokens : List Token} {node : Node} (h : Derives tokens [node])
    (hnode : ∀ o body inverse, node ≠ .block o body inverse) : ∃ token, tokens = [token] ∧ token.Reads node := by
  cases h with
  | item hitem hrest =>
    cases hrest
    exact ⟨_, rfl, hitem⟩
  | block => exact absurd rfl (hnode _ _ _)
  | blockElse => exact absurd rfl (hnode _ _ _)

namespace Builder

inductive Step : Builder → Token → Builder → Prop where
  | item {b : Builder} {token : Token} {node : Node} (h : token.Reads node) : Step b token (b.push node)
  | opens {b : Builder} {tag : Tag} {opening : Opening} (h : tag.Opens opening) :
    Step b (.tag tag) { b with stack := { block := { opening }, position := tag.position } :: b.stack }
  | begins {root : Fragment} {s : OpenSection} {stack : List OpenSection} {tag : Tag} (h : tag.IsElse)
    (hinverse : s.inverse = none) :
    Step ⟨root, s :: stack⟩ (.tag tag) ⟨root, { s with inverse := some [] } :: stack⟩
  | closes {root : Fragment} {s : OpenSection} {stack : List OpenSection} {tag : Tag} {block : Block}
    (h : tag.Closes s.block.name) (hblock : s.close = .ok block) :
    Step ⟨root, s :: stack⟩ (.tag tag) (push ⟨root, stack⟩ block.node)

theorem openSection_eq (b : Builder) (tag : Tag) (inverted : Bool) {call : Call} (h : call.name ≠ "") :
    b.openSection tag inverted call = .ok { b with
      stack := { block := { opening := ⟨call, inverted, tag.delimiters⟩ }, position := tag.position } :: b.stack
    } := by
  simp [openSection, Block.new, h, Block.withDelimiters, Except.map, pure, Except.pure]

theorem faulty_bind_eq_ok {tag : Tag} {x : Except Fault Call} {f : Call → Except SyntaxError Builder}
    {next : Builder} (h : (addTag.faulty tag x >>= f) = .ok next) : ∃ call, x = .ok call ∧ f call = .ok next := by
  cases x with
  | error fault => cases h
  | ok call => exact ⟨call, rfl, h⟩

theorem beginInverse_eq_ok {b next : Builder} {tag : Tag} (htag : tag.IsElse) (h : b.beginInverse = .ok next) :
    Step b (.tag tag) next := by
  obtain ⟨root, stack⟩ := b
  unfold beginInverse at h
  split at h
  . cases h
  next s stack hstack =>
    split at h
    . cases h
    next hinverse =>
      cases h
      dsimp only at hstack
      subst hstack
      exact .begins htag (by simpa using hinverse)

theorem closeSection_eq_ok {b next : Builder} {tag : Tag} (htag : tag.kind = .closing)
    (h : b.closeSection tag.position (String.ofList tag.content) = .ok next) : Step b (.tag tag) next := by
  obtain ⟨root, stack⟩ := b
  unfold closeSection at h
  split at h
  . cases h
  next s stack hstack =>
    split at h
    next hname =>
      dsimp only at hstack
      subst hstack
      cases hblock : s.close with
      | error e =>
        rw [hblock] at h
        cases h
      | ok block =>
        rw [hblock] at h
        cases h
        exact .closes ⟨htag, by rw [hname, String.toList_ofList]⟩ hblock
    . cases h

theorem Step.of_add {b next : Builder} {token : Token} (h : b.add token = .ok next) : Step b token next := by
  cases token with
  | text characters =>
    cases h
    exact .item (.literal characters)
  | tag tag =>
    simp only [add, addTag] at h
    split at h
    next helse =>
      cases hb : b.beginInverse with
      | error fault =>
        rw [hb] at h
        cases h
      | ok mid =>
        rw [hb] at h
        cases h
        exact beginInverse_eq_ok (isElse_iff.1 helse) hb
    next helse =>
      rw [isElse_iff] at helse
      split at h
      next hkind =>
        cases h
        exact .item (.comment hkind)
      next hkind =>
        obtain ⟨call, hcall, h⟩ := faulty_bind_eq_ok h
        rw [openSection_eq b _ _ (readCall_name_ne hcall)] at h
        cases h
        exact .opens ⟨.inl ⟨hkind, rfl⟩, hcall, rfl⟩
      next hkind =>
        obtain ⟨call, hcall, h⟩ := faulty_bind_eq_ok h
        rw [openSection_eq b _ _ (readCall_name_ne hcall)] at h
        cases h
        refine .opens ⟨.inr ⟨hkind, ?_, rfl⟩, hcall, rfl⟩
        intro hcontent
        exact helse (.inr ⟨hkind, hcontent⟩)
      next hkind => exact closeSection_eq_ok hkind h
      next hkind =>
        split at h
        . cases h
        next hpath =>
          cases h
          exact .item (.inclusion hkind hpath)
      all_goals
        next hkind =>
          obtain ⟨call, hcall, h⟩ := faulty_bind_eq_ok h
          cases h
          exact .item (.value (by rw [hkind]; rfl) hcall helse)

theorem add_of_reads {token : Token} {node : Node} (h : token.Reads node) (b : Builder) :
    b.add token = .ok (b.push node) := by
  cases h with
  | literal characters => rfl
  | @comment tag hkind =>
    have helse : isElse tag = false := by simp [isElse, hkind]
    simp [add, addTag, helse, hkind, pure, Except.pure]
  | @inclusion tag path more hkind hpath =>
    have helse : isElse tag = false := by simp [isElse, hkind]
    simp [add, addTag, helse, hkind, hpath, pure, Except.pure]
  | @value tag escape call hkind hcall helse =>
    rw [← isElse_iff, Bool.not_eq_true] at helse
    simp only [add, addTag, helse, hcall]
    generalize tag.kind = kind at hkind
    cases kind <;> cases hkind <;> rfl

theorem add_of_opens {tag : Tag} {opening : Opening} (h : tag.Opens opening) (b : Builder) :
    b.add (.tag tag) =
      .ok { b with stack := { block := { opening }, position := tag.position } :: b.stack } := by
  have helse : isElse tag = false := by
    rw [← Bool.not_eq_true, isElse_iff]
    exact h.not_isElse
  obtain ⟨call, inverted, delimiters⟩ := opening
  obtain ⟨hkind, hcall, hdelimiters⟩ := h
  dsimp only at hkind hcall hdelimiters
  subst hdelimiters
  have hopen := openSection_eq b tag inverted (readCall_name_ne hcall)
  rcases hkind with ⟨hkind, hinv⟩ | ⟨hkind, -, hinv⟩
  all_goals
    subst hinv
    simp only [add, addTag, helse, hkind, hcall]
    exact hopen

theorem add_of_isElse {tag : Tag} (h : tag.IsElse) (root : Fragment) {s : OpenSection}
    (stack : List OpenSection) (hinverse : s.inverse = none) :
    add ⟨root, s :: stack⟩ (.tag tag) = .ok ⟨root, { s with inverse := some [] } :: stack⟩ := by
  rw [← isElse_iff] at h
  simp only [add, addTag, h, ↓reduceIte, beginInverse, hinverse]
  rfl

theorem add_of_closes {tag : Tag} {s : OpenSection} (h : tag.Closes s.block.name) {block : Block}
    (hblock : s.close = .ok block) (root : Fragment) (stack : List OpenSection) :
    add ⟨root, s :: stack⟩ (.tag tag) = .ok (push ⟨root, stack⟩ block.node) := by
  have helse : isElse tag = false := by simp [isElse, h.kind]
  simp [add, addTag, helse, h.kind, closeSection, h.content, hblock, Except.map]

def pushAll (b : Builder) (nodes : Fragment) : Builder :=
  nodes.foldl push b

theorem pushAll_root (root nodes : Fragment) : pushAll ⟨root, []⟩ nodes = ⟨root ++ nodes, []⟩ := by
  induction nodes generalizing root with
  | nil => simp [pushAll]
  | cons node nodes ih =>
    have := ih (root ++ [node])
    simpa [pushAll, push] using this

theorem pushAll_body (root nodes body : Fragment) (block : Block) (position : Position)
    (stack : List OpenSection) :
    pushAll ⟨root, ⟨block, body, none, position⟩ :: stack⟩ nodes =
      ⟨root, ⟨block, body ++ nodes, none, position⟩ :: stack⟩ := by
  induction nodes generalizing body with
  | nil => simp [pushAll]
  | cons node nodes ih =>
    have := ih (body ++ [node])
    simpa [pushAll, push, OpenSection.push] using this

theorem pushAll_inverse (root nodes body inverse : Fragment) (block : Block) (position : Position)
    (stack : List OpenSection) :
    pushAll ⟨root, ⟨block, body, some inverse, position⟩ :: stack⟩ nodes =
      ⟨root, ⟨block, body, some (inverse ++ nodes), position⟩ :: stack⟩ := by
  induction nodes generalizing inverse with
  | nil => simp [pushAll]
  | cons node nodes ih =>
    have := ih (inverse ++ [node])
    simpa [pushAll, push, OpenSection.push] using this

end Builder

theorem close_body (opening : Opening) (body : Fragment) (position : Position) :
    OpenSection.close ⟨{ opening }, body, none, position⟩ = .ok ⟨opening, body, none⟩ := rfl

theorem close_inverse (opening : Opening) (body inverse : Fragment) (position : Position) :
    OpenSection.close ⟨{ opening }, body, some inverse, position⟩ = .ok ⟨opening, body, inverse⟩ := rfl

open Builder

theorem Derives.run {tokens : List Token} {nodes : Fragment} (h : Derives tokens nodes) (b : Builder) :
    tokens.foldlM add b = .ok (b.pushAll nodes) := by
  induction h generalizing b with
  | nil => rfl
  | item hitem _ ih =>
    rw [run_cons, add_of_reads hitem]
    exact ih (b.push _)
  | @block first last opening inside tokens body nodes hfirst _ hlast _ ihbody ihrest =>
    rw [List.cons_append, run_cons, add_of_opens hfirst, Except.bind, run_append, ihbody, Except.bind,
      pushAll_body, run_cons, add_of_closes hlast (close_body ..), Except.bind, ihrest]
    rfl
  | @blockElse first middle last opening inside behind tokens body inverse nodes hfirst _ hmiddle _ hlast _ ihbody
      ihinverse ihrest =>
    simp only [List.cons_append, List.append_assoc]
    rw [run_cons, add_of_opens hfirst, Except.bind, run_append, ihbody, Except.bind, pushAll_body, run_cons,
      add_of_isElse hmiddle _ _ rfl, Except.bind, run_append, ihinverse, Except.bind, pushAll_inverse, run_cons,
      add_of_closes hlast (close_inverse ..), Except.bind, ihrest]
    rfl

/--
The tokens that a tree under construction stands for: those outside of all open sections, and for each open section
its opening tag, at the place that is kept, and what is inside of it so far.
-/
inductive Builder.Holds : List Token → Builder → Prop where
  | root {tokens : List Token} {nodes : Fragment} (h : Derives tokens nodes) : Holds tokens ⟨nodes, []⟩
  | body {before inside : List Token} {root body : Fragment} {stack : List OpenSection} {first : Tag}
    {opening : Opening} (hbefore : Holds before ⟨root, stack⟩) (hfirst : first.Opens opening)
    (hbody : Derives inside body) :
    Holds (before ++ .tag first :: inside) ⟨root, ⟨{ opening }, body, none, first.position⟩ :: stack⟩
  | inverse {before inside behind : List Token} {root body inverse : Fragment} {stack : List OpenSection}
    {first middle : Tag} {opening : Opening} (hbefore : Holds before ⟨root, stack⟩) (hfirst : first.Opens opening)
    (hbody : Derives inside body) (hmiddle : middle.IsElse) (hinverse : Derives behind inverse) :
    Holds (before ++ .tag first :: inside ++ .tag middle :: behind)
      ⟨root, ⟨{ opening }, body, some inverse, first.position⟩ :: stack⟩

theorem Builder.Holds.push {tokens more : List Token} {b : Builder} {node : Node} (h : Holds tokens b)
    (hnode : Derives more [node]) : Holds (tokens ++ more) (b.push node) := by
  cases h with
  | root h => exact .root (h.append hnode)
  | body hbefore hfirst hbody =>
    rw [List.append_assoc]
    exact .body hbefore hfirst (hbody.append hnode)
  | inverse hbefore hfirst hbody hmiddle hinverse =>
    rw [List.append_assoc]
    exact .inverse hbefore hfirst hbody hmiddle (hinverse.append hnode)

theorem Builder.Holds.step {tokens : List Token} {token : Token} {b next : Builder} (h : Holds tokens b)
    (hstep : Step b token next) : Holds (tokens ++ [token]) next := by
  cases hstep with
  | item hitem => exact h.push (.singleton hitem)
  | opens hfirst => exact .body h hfirst .nil
  | begins hmiddle hnone =>
    cases h with
    | body hbefore hfirst hbody => exact .inverse hbefore hfirst hbody hmiddle .nil
    | inverse => cases hnone
  | closes hlast hblock =>
    cases h with
    | body hbefore hfirst hbody =>
      -- the section with both of its tags is one node of what is around it
      cases hblock
      have hnode := Derives.block hfirst hbody hlast .nil
      rw [List.append_assoc]
      exact hbefore.push hnode
    | inverse hbefore hfirst hbody hmiddle hinverse =>
      cases hblock
      have hnode := Derives.blockElse hfirst hbody hmiddle hinverse hlast .nil
      simp only [List.append_assoc, List.cons_append] at hnode ⊢
      exact hbefore.push hnode

theorem Builder.Holds.of_run {tokens : List Token} {b : Builder} (h : tokens.foldlM add {} = .ok b) :
    Holds tokens b :=
  run_invariant Holds (fun hholds hadd => hholds.step (.of_add hadd)) (.root .nil) h

theorem Derives.parseTokens_eq {tokens : List Token} {fragment : Fragment} (h : Derives tokens fragment) :
    parseTokens tokens = .ok fragment := by
  rw [parseTokens, h.run, pushAll_root]
  rfl

theorem derives_of_parseTokens {tokens : List Token} {fragment : Fragment}
    (h : parseTokens tokens = .ok fragment) : Derives tokens fragment := by
  simp only [parseTokens] at h
  cases hb : tokens.foldlM add {} with
  | error e =>
    rw [hb] at h
    cases h
  | ok b =>
    rw [hb] at h
    cases Holds.of_run hb with
    | root hderives =>
      cases h
      exact hderives
    | body => cases h
    | inverse => cases h

theorem fault_eq_none_of_parseTokens {tokens : List Token} {fault : Option SyntaxError} {fragment : Fragment}
    (h : parseTokens tokens fault = .ok fragment) : fault = none := by
  unfold parseTokens at h
  cases hb : tokens.foldlM add {} with
  | error e =>
    rw [hb] at h
    cases h
  | ok b =>
    rw [hb] at h
    cases fault with
    | none => rfl
    | some fault => cases h

theorem derives_of_parse {source : String} {d : Delimiters} {f : Fragment} (h : parse source d = .ok f) :
    d.isProper ∧ Derives ((Scanner.start source.toList d).pieces.1.filterMap Piece.token?) f := by
  unfold parse at h
  split at h
  next hd =>
    dsimp only at h
    rw [fault_eq_none_of_parseTokens h] at h
    exact ⟨hd, derives_of_parseTokens h⟩
  . cases h

/--
A tree is built from some tokens iff the grammar derives it from them.
-/
theorem parseTokens_eq_ok_iff (tokens : List Token) (fragment : Fragment) :
    parseTokens tokens = .ok fragment ↔ Derives tokens fragment :=
  ⟨derives_of_parseTokens, Derives.parseTokens_eq⟩

end Mustache.Source
