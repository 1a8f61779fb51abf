import Mustache.Proofs.Exec
import Mustache.Proofs.Occurrence
import Mustache.Proofs.Sections

/-!
This module contains sections whose value is called. The main statement is that a section whose lambda gives back the
text of the body renders like the body, if the body is faithful to its source.
-/

namespace Mustache

open RenderM Source

variable {σ α β : Type}

theorem Host.bool?_of_callable {host : Host σ} {value : Value} {callable : Callable σ}
    (h : host.callable? value = some callable) : value.bool? = none := by
  cases value <;> first | rfl | cases h

namespace Walk

variable {w : Walk σ} {scope : Scope σ}

theorem exec_lambdaFragment {callable : Callable σ} {body : Fragment} {d : Delimiters} {source : String}
    {s : RenderState σ} {host : σ}
    (hcall : (callable scope (Fragment.textWith d body)).run.run s.host = (.ok (.string source), host)) :
    exec (lambdaFragment w.engine.host callable scope body d) s =
      exec (do return (← ofExcept (Template.compile d source)).fragment)
        { s with host, log := s.log ++ [.lambdaOutput source] } := by
  unfold lambdaFragment
  rw [exec_bind (exec_ofCall hcall)]
  dsimp only
  rw [exec_bind (exec_log ..)]

variable {opening : Opening} {body fragment : Fragment} {inverse : Option Fragment} {value : Value}
  {callable : Callable σ} {source : String} {s : RenderState σ} {h₁ h₂ h₃ h₄ h₅ : σ}
  {params : List Value} {hash : Dict Value}

theorem exec_implicitOutput_lambda (hinverted : opening.inverted = false)
    (hget : (scope.get opening.call.name).run s.host = (some value, h₁))
    (hiterable : (w.engine.host.isIterable value).run h₁ = (false, h₂))
    (hcallable : w.engine.host.callable? value = some callable)
    (hcall : (callable scope (Fragment.textWith opening.delimiters body)).run.run h₂ = (.ok (.string source), h₃)) :
    exec (w.implicitOutput scope opening body inverse) s =
      exec (do
        let template ← ofExcept (Template.compile opening.delimiters source)
        let _ ← ofHost (scope.evaluateParams opening.call.params)
        let _ ← ofHost (scope.evaluateHash opening.call.hash)
        return some (.text (← capture (w.renderer template.fragment scope))))
        { s with host := h₃, log := s.log ++ [.lambdaOutput source] } := by
  have hfragment := exec_lambdaFragment (w := w) (s := { s with host := h₂ }) hcall
  unfold implicitOutput
  dsimp only
  rw [exec_bind (exec_ofHost hget)]
  simp only [Option.getD_some, hinverted, Bool.false_eq_true, ↓reduceIte]
  rw [exec_bind (exec_ofHost hiterable)]
  simp only [Bool.false_eq_true, ↓reduceIte, Host.bool?_of_callable hcallable, Option.isSome_none, hcallable]
  rw [exec_bind_congr hfragment, bind_assoc]
  rfl

theorem exec_renderBlock_lambda (hname : w.engine.helpers.get? opening.call.name = none)
    (hinverted : opening.inverted = false) (hget : (scope.get opening.call.name).run s.host = (some value, h₁))
    (hiterable : (w.engine.host.isIterable value).run h₁ = (false, h₂))
    (hcallable : w.engine.host.callable? value = some callable)
    (hcall : (callable scope (Fragment.textWith opening.delimiters body)).run.run h₂ = (.ok (.string source), h₃))
    (hparse : parse source opening.delimiters = .ok fragment)
    (hparams : (scope.evaluateParams opening.call.params).run h₃ = (params, h₄))
    (hhash : (scope.evaluateHash opening.call.hash).run h₄ = (hash, h₅)) :
    exec (w.renderBlock scope opening (some body) inverse) s =
      exec (capture (w.renderer fragment scope) >>= write)
        { s with host := h₅, log := s.log ++ [.lambdaOutput source] } := by
  have hcompile : Template.compile opening.delimiters source = .ok { fragment, source } := by
    rw [Template.compile, hparse]
    rfl
  rw [renderBlock_implicit hname,
    exec_bind_congr (exec_implicitOutput_lambda hinverted hget hiterable hcallable hcall), hcompile]
  -- the arguments of the section are looked up, but only their traces in the host stay
  simp only [bind_assoc, ofExcept_ok, pure_bind]
  rw [exec_bind (exec_ofHost hparams), exec_bind (exec_ofHost hhash)]
  rfl

theorem exec_renderBlock_unreadable (hname : w.engine.helpers.get? opening.call.name = none)
    (hinverted : opening.inverted = false) (hget : (scope.get opening.call.name).run s.host = (some value, h₁))
    (hiterable : (w.engine.host.isIterable value).run h₁ = (false, h₂))
    (hcallable : w.engine.host.callable? value = some callable)
    (hcall : (callable scope (Fragment.textWith opening.delimiters body)).run.run h₂ = (.ok (.string source), h₃))
    {e : SyntaxError} (hparse : parse source opening.delimiters = .error e) :
    exec (w.renderBlock scope opening (some body) inverse) s =
      (.error (.error (.malformed e)), { s with host := h₃, log := s.log ++ [.lambdaOutput source] }) := by
  have hcompile : Template.compile opening.delimiters source = .error (.malformed e) := by
    rw [Template.compile, hparse]
    rfl
  rw [renderBlock_implicit hname,
    exec_bind_congr (exec_implicitOutput_lambda hinverted hget hiterable hcallable hcall), hcompile]
  rfl

end Walk

namespace Engine

theorem exec_capture_section {engine : Engine σ} {depth : Nat} {scope : Scope σ} {opening : Opening}
    {body fragment : Fragment} {inverse : Option Fragment} {s t : RenderState σ} (hsink : t.sink = s.sink)
    (h : exec (Walk.renderBlock ⟨engine, engine.renderer depth⟩ scope opening (some body) inverse)
        { s with sink := {} } =
      exec (capture (engine.renderer depth fragment scope) >>= write) { t with sink := {} }) :
    exec (capture (engine.renderer (depth + 1) [.block opening (some body) inverse] scope)) s =
      exec (capture (engine.renderer depth fragment scope)) t := by
  rw [renderer_block, ← capture_write (engine.renderer depth fragment scope), exec_capture_eq, exec_capture_eq, h,
    hsink]

def echo : Engine Unit :=
  .standard { Host.inert with callable := fun _ _ text => pure (.string text) } .gregorian

theorem echo_get (value : Value) :
    ((echo.rootScope (.map [("f", .lambda 0), ("x", value)])).get "f").run () = (some (.lambda 0), ()) := by
  rfl

/--
A section of the tree of a source stands in the source. If the delimiters do not change in it and its lambda gives back
the text of its body, it renders like its body, if the body is faithful to its source. In no other case is the body read
back from the text.
-/
theorem exec_identity_section (engine : Engine σ) (depth : Nat) (scope : Scope σ) (s : RenderState σ)
    {source : String} {d : Delimiters} {opening : Opening} {body : Fragment} (helse : Fragment.ElseFree body)
    (inverse : Option Fragment) (hinverted : opening.inverted = false)
    (hname : engine.helpers.get? opening.call.name = none) {value : Value} {callable : Callable σ}
    {h₁ h₂ h₃ h₄ h₅ : σ} {params : List Value} {hash : Dict Value}
    (hget : (scope.get opening.call.name).run s.host = (some value, h₁))
    (hiterable : (engine.host.isIterable value).run h₁ = (false, h₂))
    (hcallable : engine.host.callable? value = some callable)
    (hidentity : (callable scope (Fragment.textWith opening.delimiters body)).run.run h₂ =
      (.ok (.string (Fragment.textWith opening.delimiters body)), h₃))
    (hparams : (scope.evaluateParams opening.call.params).run h₃ = (params, h₄))
    (hhash : (scope.evaluateHash opening.call.hash).run h₄ = (hash, h₅)) :
    (∀ fragment, parse source d = .ok fragment → Fragment.Has opening body fragment →
      ∃ inside, HasSection source d opening inside body) ∧
    ∀ inside, HasSection source d opening inside body → (∀ p ∈ inside, ∀ d, p.reading ≠ .change d) →
      (Fragment.Faithful opening.delimiters body →
        parse (Fragment.textWith opening.delimiters body) opening.delimiters = .ok body ∧
          exec (capture (engine.renderer (depth + 1) [.block opening (some body) inverse] scope)) s =
            exec (capture (engine.renderer depth body scope))
              { s with
                host := h₅
                log := s.log ++ [.lambdaOutput (Fragment.textWith opening.delimiters body)] }) ∧
        (opening.delimiters.EndsNumbers →
          parse (Fragment.textWith opening.delimiters body) opening.delimiters = .ok body →
          Fragment.Faithful opening.delimiters body) := by
  refine ⟨fun _ => hasSection_of_parse, ?_⟩
  intro inside hsection hkept
  obtain ⟨hparse, hexact⟩ := hsection.parse_body hkept helse
  refine ⟨?_, hexact⟩
  intro hfaithful
  refine ⟨hparse hfaithful, exec_capture_section rfl ?_⟩
  exact Walk.exec_renderBlock_lambda hname hinverted hget hiterable hcallable hidentity (hparse hfaithful) hparams hhash

theorem exec_identity_section_quoted :
    let d : Delimiters := ⟨"<%", "%>"⟩
    let source := "<%#f%><%x \x27a b\x27 -1%><%/f%>"
    let body : Fragment := [.variable { name := "x", params := [.str "a b", .int (-1)] } .html]
    let opening : Opening := ⟨{ name := "f" }, false, d⟩
    let scope := echo.rootScope (.map [("f", .lambda 0), ("x", .string "1")])
    parse source d = .ok [.block opening (some body) none] ∧ Fragment.Faithful d body ∧
      parse (Fragment.textWith d body) d = .ok body ∧
      exec (capture (echo.renderer 2 [.block opening (some body) none] scope)) { host := () } =
        exec (capture (echo.renderer 1 body scope))
          { host := (), log := [.lambdaOutput (Fragment.textWith d body)] } := by
  intro d source body opening scope
  let first : Piece := ⟨"<%#f%>".toList, ⟨1, 1⟩, d, .tag .opening ['f']⟩
  let value : Piece := ⟨"<%x \x27a b\x27 -1%>".toList, ⟨1, 7⟩, d, .tag .escaped "x \x27a b\x27 -1".toList⟩
  let last : Piece := ⟨"<%/f%>".toList, ⟨1, 21⟩, d, .tag .closing ['f']⟩
  have hpieces : (Scanner.start source.toList d).pieces = ([first, value, last], none) :=
    Scanner.pieces_of_within 4 (by decide)
  have hparse : parse source d = .ok [.block opening (some body) none] := by
    rw [parse, if_pos (by decide), hpieces]
    rfl
  have hstring : IsWhole (Param.str "a b").text.toList := by decide
  have hargs : Call.Faithful { name := "x", params := [.str "a b", .int (-1)] } :=
    ⟨by simp [Param.Faithful, hstring], by simp⟩
  have hfaithful : Fragment.Faithful d body :=
    ⟨⟨hargs, by decide, by decide⟩, trivial⟩
  obtain ⟨hsections, hidentity⟩ := @exec_identity_section _ echo 1 scope { host := () } source d opening body
    ⟨trivial, trivial⟩ none rfl (by rfl) _ _ _ _ _ _ _ _ _ (echo_get _) (by rfl) (by rfl) (by rfl) (by rfl) (by rfl)
  obtain ⟨inside, hsection⟩ := hsections _ hparse (.here [])
  have hkept : ∀ p ∈ inside, ∀ d, p.reading ≠ .change d := by
    intro p hp
    obtain ⟨before, opener, closer, after, hplaced, -, -⟩ := hsection.placed
    rw [hpieces] at hplaced
    have hmem : p ∈ before ++ opener :: (inside ++ closer :: after) := by simp [hp]
    rw [← hplaced] at hmem
    simp only [List.mem_cons, List.not_mem_nil, or_false] at hmem
    rcases hmem with rfl | rfl | rfl <;> simp [first, value, last]
  exact ⟨hparse, hfaithful, (hidentity inside hsection hkept).1 hfaithful⟩

/--
A string that holds a double quote ends early in the text of the body, so the section fails where the body does not.
-/
theorem identity_section_fails :
    let source := "\x7b\x7b#f\x7d\x7d\x7b\x7bx \x27a\x22b\x27\x7d\x7d\x7b\x7b/f\x7d\x7d"
    let body : Fragment := [.variable { name := "x", params := [.str "a\x22b"] } .html]
    let opening : Opening := ⟨{ name := "f" }, false, .standard⟩
    let scope := echo.rootScope (.map [("f", .lambda 0), ("x", .string "1")])
    let e : SyntaxError := .malformed ⟨1, 1⟩ .unterminatedString
    parse source .standard = .ok [.block opening (some body) none] ∧
      parse (Fragment.textWith .standard body) .standard = .error e ∧
      (exec (capture (echo.renderer 2 [.block opening (some body) none] scope)) { host := () }).1 =
        .error (.error (.malformed e)) ∧
      (exec (capture (echo.renderer 1 body scope)) { host := () }).1 = .ok "1" := by
  intro source body opening scope e
  let first : Piece := ⟨"\x7b\x7b#f\x7d\x7d".toList, ⟨1, 1⟩, .standard, .tag .opening ['f']⟩
  let value : Piece :=
    ⟨"\x7b\x7bx \x27a\x22b\x27\x7d\x7d".toList, ⟨1, 7⟩, .standard, .tag .escaped "x \x27a\x22b\x27".toList⟩
  let last : Piece := ⟨"\x7b\x7b/f\x7d\x7d".toList, ⟨1, 18⟩, .standard, .tag .closing ['f']⟩
  let broken : Piece :=
    ⟨"\x7b\x7bx \x22a\x22b\x22\x7d\x7d".toList, ⟨1, 1⟩, .standard, .tag .escaped "x \x22a\x22b\x22".toList⟩
  have hsource : (Scanner.start source.toList .standard).pieces = ([first, value, last], none) :=
    Scanner.pieces_of_within 4 (by decide)
  have htext : (Scanner.start (Fragment.textWith .standard body).toList .standard).pieces = ([broken], none) :=
    Scanner.pieces_of_within 2 (by decide)
  have hparse : parse (Fragment.textWith .standard body) .standard = .error e := by
    rw [parse, if_pos (by decide), htext]
    rfl
  refine ⟨?_, hparse, ?_, rfl⟩
  . rw [parse, if_pos (by decide), hsource]
    rfl
  . rw [renderer_block]
    have hfails := @Walk.exec_renderBlock_unreadable _ ⟨echo, echo.renderer 1⟩ scope opening body none (.lambda 0) _ _
      { host := () } () () () (by rfl) rfl (echo_get _) (by rfl) (by rfl) (by rfl) e hparse
    rw [exec_capture_error hfails]

end Engine

end Mustache
