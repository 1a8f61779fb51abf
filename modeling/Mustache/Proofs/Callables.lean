import Mustache.Proofs.Alike
import Mustache.Proofs.Lambda
import Mustache.Proofs.WellFormed

/-!
This module contains the tags whose value is called. The main statement is that the text which is given back for a
section is read with the delimiters of the section, and the text which is given back for a variable with those of the
engine.
-/

namespace Mustache

open RenderM Source

variable {σ : Type}

namespace Source

theorem Scanner.pieces_delimiters {s : Scanner} (hkept : ∀ p ∈ s.pieces.1, ∀ d, p.reading ≠ .change d) :
    ∀ p ∈ s.pieces.1, p.delimiters = s.delimiters := by
  induction s using Scanner.pieces.induct with
  | case1 s hstep =>
    rw [pieces_of_finished hstep]
    rintro _ ⟨⟩
  | case2 s fault hstep =>
    rw [pieces_of_fault hstep]
    rintro _ ⟨⟩
  | case3 s piece next hstep _ _ _ _ ih =>
    rw [pieces_of_piece hstep, List.forall_mem_cons] at hkept
    rw [pieces_of_piece hstep, List.forall_mem_cons]
    obtain ⟨hpiece, hnext⟩ := piece_delimiters hstep
    have hsame : next.delimiters = s.delimiters := by
      rw [hnext, ← hpiece]
      cases hreading : piece.reading with
      | change d => exact absurd hreading (hkept.1 d)
      | text | tag => rw [Piece.delimitersAfter, hreading]
    rw [← hsame]
    exact ⟨hpiece.trans hsame.symm, ih hkept.2⟩

def Token.ReadWith (d : Delimiters) : Token → Prop
  | .text _ => True
  | .tag t => t.delimiters = d

end Source

def Node.OpenedWith (d : Delimiters) : Node → Prop
  | .block opening _ _ => opening.delimiters = d
  | .literal _ | .comment _ | .variable _ _ | .inclusion _ => True

theorem openedWith_of_parse {source : String} {d : Delimiters} {f : Fragment} (h : parse source d = .ok f)
    (hkept : ∀ p ∈ (Scanner.start source.toList d).pieces.1, ∀ e, p.reading ≠ .change e) :
    ∀ node ∈ Fragment.parts f, node.OpenedWith d := by
  obtain ⟨-, hderives⟩ := derives_of_parse h
  have hreads {token : Token} {node : Node} (_ : token.ReadWith d) (hreads : token.Reads node) : node.OpenedWith d := by
    cases hreads <;> trivial
  have hopens {tag : Tag} {opening : Opening} (htag : Token.ReadWith d (.tag tag)) (hopens : tag.Opens opening)
      (body : Fragment) (inverse : Option Fragment) : (Node.block opening (some body) inverse).OpenedWith d :=
    hopens.delimiters.trans htag
  apply Derives.forall_parts hreads hopens hderives
  intro token htoken
  obtain ⟨p, hp, hread⟩ := List.mem_filterMap.1 htoken
  cases token with
  | text characters => trivial
  | tag tag =>
    obtain ⟨-, -, htag⟩ := Piece.token?_eq_tag hread
    exact htag.trans (Scanner.pieces_delimiters hkept p hp)

namespace Walk

variable {w : Walk σ} {scope : Scope σ} {value : Value} {callable : Callable σ} {text : String} {s : RenderState σ}
  {found asked called : σ}

theorem exec_valueText_called (hcallable : w.engine.host.callable? value = some callable)
    (hcall : (callable scope "").run.run s.host = (.ok (.string text), called)) :
    exec (w.valueText scope value) s =
      exec (do
        let template ← ofExcept (Template.compile w.engine.delimiters text)
        capture (w.renderer template.fragment scope))
        { s with host := called, log := s.log ++ [.lambdaOutput text] } := by
  unfold valueText
  rw [hcallable]
  dsimp only
  rw [exec_bind_congr (exec_lambdaFragment hcall), bind_assoc]
  rfl

end Walk

namespace Engine

variable {engine : Engine σ}

theorem renderer_variable (depth : Nat) (scope : Scope σ) (call : Call) (escape : Escape) :
    engine.renderer (depth + 1) [.variable call escape] scope =
      Walk.renderVariable ⟨engine, engine.renderer depth⟩ scope call escape := by
  simp [renderer, Walk.renderNodes, Walk.renderNode]

theorem exec_capture_variable {depth : Nat} {scope : Scope σ} {call : Call} {s : RenderState σ} {value : Value}
    {found : σ} (hname : engine.helpers.get? call.name = none)
    (hget : (scope.get call.name).run s.host = (some value, found)) (escape : Escape) :
    exec (capture (engine.renderer (depth + 1) [.variable call escape] scope)) s =
      exec (Walk.valueText ⟨engine, engine.renderer depth⟩ scope value >>= fun text =>
        pure (if escape.escapes then Text.escapeHtml text else text)) { s with host := found } := by
  rw [renderer_variable]
  unfold Walk.renderVariable
  rw [hname]
  dsimp only
  rw [quiet_ofHost.capture_bind, exec_bind (exec_ofHost hget)]
  dsimp only
  rw [Walk.valueText_quiet.capture_bind]
  simp only [capture_text]

theorem capture_implicit {depth : Nat} {scope : Scope σ} {opening : Opening} {body : Fragment}
    {inverse : Option Fragment} (hname : engine.helpers.get? opening.call.name = none) :
    capture (engine.renderer (depth + 1) [.block opening (some body) inverse] scope) =
      Walk.implicitOutput ⟨engine, engine.renderer depth⟩ scope opening body inverse >>= fun output =>
        pure (Comparison.writtenText false output) := by
  rw [renderer_block, Walk.renderBlock_implicit hname, Comparison.capture_output Walk.implicitOutput_quiet]

/--
In a template in which nothing changes the delimiters, the text that is given back for a section is read with the
delimiters of the template, before the arguments of the section are looked up. The text that is given back for a
variable is read with the delimiters of the engine, and what it renders to is escaped by the tags that escape.
-/
theorem exec_called_tag {source : String} {d : Delimiters} {template : Template}
    (hcompile : Template.compile d source = .ok template)
    (hkept : ∀ p ∈ (Scanner.start source.toList d).pieces.1, ∀ e, p.reading ≠ .change e) {node : Node}
    (hnode : node ∈ Fragment.parts template.fragment) (depth : Nat) (scope : Scope σ) :
    (∀ opening body inverse, node = .block opening body inverse → ∃ content, body = some content ∧
      (opening.inverted = false → engine.helpers.get? opening.call.name = none →
        ∀ (s : RenderState σ) value callable text found asked called,
          (scope.get opening.call.name).run s.host = (some value, found) →
          (engine.host.isIterable value).run found = (false, asked) →
          engine.host.callable? value = some callable →
          (callable scope (Fragment.textWith d content)).run.run asked = (.ok (.string text), called) →
          exec (capture (engine.renderer (depth + 1) [node] scope)) s =
            exec (do
              let template ← ofExcept (Template.compile d text)
              let _ ← ofHost (scope.evaluateParams opening.call.params)
              let _ ← ofHost (scope.evaluateHash opening.call.hash)
              capture (engine.renderer depth template.fragment scope))
              { s with host := called, log := s.log ++ [.lambdaOutput text] })) ∧
    ∀ call escape, node = .variable call escape → engine.helpers.get? call.name = none →
      ∀ (s : RenderState σ) value callable text found called,
        (scope.get call.name).run s.host = (some value, found) →
        engine.host.callable? value = some callable →
        (callable scope "").run.run found = (.ok (.string text), called) →
        exec (capture (engine.renderer (depth + 1) [node] scope)) s =
          exec (do
            let template ← ofExcept (Template.compile engine.delimiters text)
            let output ← capture (engine.renderer depth template.fragment scope)
            return if escape.escapes then Text.escapeHtml output else output)
            { s with host := called, log := s.log ++ [.lambdaOutput text] } := by
  have hparse := Template.parse_eq_ok hcompile
  constructor
  . rintro opening body inverse rfl
    have hdelimiters : opening.delimiters = d := openedWith_of_parse hparse hkept _ hnode
    obtain ⟨content, rfl⟩ := Option.isSome_iff_exists.1 (wellFormed_of_parse hparse _ hnode).1
    refine ⟨content, rfl, ?_⟩
    intro hinverted hname s value callable text found asked called hget hiterable hcallable hcall
    rw [← hdelimiters] at hcall ⊢
    rw [capture_implicit hname,
      exec_bind_congr (Walk.exec_implicitOutput_lambda hinverted hget hiterable hcallable hcall)]
    simp only [bind_assoc, pure_bind, Comparison.writtenText, Bool.false_eq_true, ↓reduceIte, bind_pure]
  . rintro call escape rfl hname s value callable text found called hget hcallable hcall
    rw [exec_capture_variable hname hget, exec_bind_congr (Walk.exec_valueText_called hcallable hcall)]
    simp only [bind_assoc]

def angled : Engine Unit :=
  { echo with host := { Host.inert with callable := fun _ _ _ => pure (.string "<%x%>") } }

theorem compile_angled :
    Template.compile ⟨"<%", "%>"⟩ "<%x%>" =
      .ok { fragment := [.variable { name := "x" } .html], source := "<%x%>" } := by
  have hpieces : (Scanner.start "<%x%>".toList ⟨"<%", "%>"⟩).pieces =
      ([⟨"<%x%>".toList, ⟨1, 1⟩, ⟨"<%", "%>"⟩, .tag .escaped ['x']⟩], none) :=
    Scanner.pieces_of_within 2 (by decide)
  rw [Template.compile, parse, if_pos (by decide), hpieces]
  rfl

theorem compile_angled_standard :
    Template.compile .standard "<%x%>" = .ok { fragment := [.literal "<%x%>"], source := "<%x%>" } := by
  have hpieces : (Scanner.start "<%x%>".toList .standard).pieces =
      ([⟨"<%x%>".toList, ⟨1, 1⟩, .standard, .text⟩], none) :=
    Scanner.pieces_of_within 2 (by decide)
  rw [Template.compile, parse, if_pos (by decide), hpieces]
  rfl

theorem exec_called_tag_angled :
    let d : Delimiters := ⟨"<%", "%>"⟩
    let source := "<%#f%>a<%/f%><%f%>"
    let call : Call := { name := "f" }
    let body : Fragment := [.literal "a"]
    let template : Template := { fragment := [.block ⟨call, false, d⟩ (some body) none, .variable call .html], source }
    let scope := angled.rootScope (.map [("f", .lambda 0), ("x", .string "1")])
    (Template.compile d source = .ok template ∧
        (∀ p ∈ (Scanner.start source.toList d).pieces.1, ∀ e, p.reading ≠ .change e) ∧
        (.block ⟨call, false, d⟩ (some body) none ∈ Fragment.parts template.fragment ∧
          .variable call .html ∈ Fragment.parts template.fragment) ∧
        angled.helpers.get? "f" = none ∧ (scope.get "f").run () = (some (.lambda 0), ()) ∧
        (angled.host.isIterable (.lambda 0)).run () = (false, ()) ∧
        (angled.host.callable? (.lambda 0)).isSome) ∧
      (exec (capture (angled.renderer 2 [.block ⟨call, false, d⟩ (some body) none] scope)) { host := () }).1 =
        .ok "1" ∧
      (exec (capture (angled.renderer 2 [.variable call .html] scope)) { host := () }).1 = .ok "&lt;%x%&gt;" := by
  intro d source call body template scope
  let first : Piece := ⟨"<%#f%>".toList, ⟨1, 1⟩, d, .tag .opening ['f']⟩
  let text : Piece := ⟨['a'], ⟨1, 7⟩, d, .text⟩
  let last : Piece := ⟨"<%/f%>".toList, ⟨1, 8⟩, d, .tag .closing ['f']⟩
  let value : Piece := ⟨"<%f%>".toList, ⟨1, 14⟩, d, .tag .escaped ['f']⟩
  have hpieces : (Scanner.start source.toList d).pieces = ([first, text, last, value], none) :=
    Scanner.pieces_of_within 5 (by decide)
  have hcompile : Template.compile d source = .ok template := by
    rw [Template.compile, parse, if_pos (by decide), hpieces]
    rfl
  have hkept : ∀ p ∈ (Scanner.start source.toList d).pieces.1, ∀ e, p.reading ≠ .change e := by
    rw [hpieces]
    simp [first, text, last, value]
  have hsection : .block ⟨call, false, d⟩ (some body) none ∈ Fragment.parts template.fragment :=
    Fragment.mem_parts List.mem_cons_self
  have hvariable : .variable call .html ∈ Fragment.parts template.fragment :=
    Fragment.mem_parts (List.mem_cons_of_mem _ List.mem_cons_self)
  have hname : angled.helpers.get? "f" = none := by rfl
  have hget : (scope.get "f").run () = (some (.lambda 0), ()) := by rfl
  obtain ⟨hblock, -⟩ := exec_called_tag hcompile hkept hsection 1 scope
  obtain ⟨-, htag⟩ := exec_called_tag hcompile hkept hvariable 1 scope
  obtain ⟨content, hcontent, hrun⟩ := hblock _ _ _ rfl
  cases hcontent
  have hiterable : (angled.host.isIterable (.lambda 0)).run () = (false, ()) := by rfl
  refine ⟨⟨hcompile, hkept, ⟨hsection, hvariable⟩, hname, hget, hiterable, rfl⟩, ?_, ?_⟩
  . rw [hrun rfl hname { host := () } _ _ "<%x%>" () () () hget hiterable rfl rfl, compile_angled]
    rfl
  . rw [htag _ _ rfl hname { host := () } _ _ "<%x%>" () () hget rfl rfl]
    have hstandard : Template.compile angled.delimiters "<%x%>" = _ := compile_angled_standard
    rw [hstandard]
    rfl

/--
A variable alone: its text is not read with the delimiters of its template, with which it renders to another text.
-/
theorem variable_read_apart :
    let d : Delimiters := ⟨"<%", "%>"⟩
    let call : Call := { name := "f" }
    let scope := angled.rootScope (.map [("f", .lambda 0), ("x", .string "1")])
    (Template.compile d "<%f%>" = .ok { fragment := [.variable call .html], source := "<%f%>" } ∧
        (∀ p ∈ (Scanner.start "<%f%>".toList d).pieces.1, ∀ e, p.reading ≠ .change e) ∧
        angled.helpers.get? "f" = none ∧ (scope.get "f").run () = (some (.lambda 0), ()) ∧
        angled.host.callable? (.lambda 0) = some (fun _ _ => pure (.string "<%x%>"))) ∧
      (exec (capture (angled.renderer 2 [.variable call .html] scope)) { host := () }).1 = .ok "&lt;%x%&gt;" ∧
      (exec (do
        let template ← ofExcept (Template.compile d "<%x%>")
        let output ← capture (angled.renderer 1 template.fragment scope)
        return if Escape.escapes .html then Text.escapeHtml output else output) { host := () }).1 = .ok "1" := by
  intro d call scope
  let value : Piece := ⟨"<%f%>".toList, ⟨1, 1⟩, d, .tag .escaped ['f']⟩
  have hpieces : (Scanner.start "<%f%>".toList d).pieces = ([value], none) := Scanner.pieces_of_within 2 (by decide)
  have hget : (scope.get "f").run () = (some (.lambda 0), ()) := by rfl
  refine ⟨⟨?_, ?_, by rfl, hget, rfl⟩, ?_, ?_⟩
  . rw [Template.compile, parse, if_pos (by decide), hpieces]
    rfl
  . rw [hpieces]
    simp [value]
  . rw [exec_capture_variable (by rfl) hget, exec_bind_congr (Walk.exec_valueText_called rfl rfl)]
    have hstandard : Template.compile angled.delimiters "<%x%>" = _ := compile_angled_standard
    rw [hstandard]
    rfl
  . rw [show Template.compile d "<%x%>" = _ from compile_angled]
    rfl

end Engine

end Mustache
