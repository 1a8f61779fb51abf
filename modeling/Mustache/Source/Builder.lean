import Mustache.Tree.Block
import Mustache.Source.Expression
import Mustache.Source.Piece

/-!
This module contains the building of a tree from tokens. Sections that are still open are kept on a stack.
-/

namespace Mustache.Source

/--
A section without its closing tag: the nodes of its body, those behind its `else` once there was one, and the
place of its opening tag.
-/
structure OpenSection where
  block : Block
  body : Fragment := []
  inverse : Option Fragment := none
  position : Position

def OpenSection.push (s : OpenSection) (node : Node) : OpenSection :=
  match s.inverse with
  | some inverse => { s with inverse := some (inverse ++ [node]) }
  | none => { s with body := s.body ++ [node] }

def OpenSection.close (s : OpenSection) : Except SyntaxError Block :=
  (s.block.setBody s.body).map fun block =>
    match s.inverse with
    | some inverse => block.setInverse inverse
    | none => block

/--
A tree under construction: the nodes outside of all sections, and the open sections, the innermost first.
-/
structure Builder where
  root : Fragment := []
  stack : List OpenSection := []

namespace Builder

def push (b : Builder) (node : Node) : Builder :=
  match b.stack with
  | [] => { b with root := b.root ++ [node] }
  | s :: stack => { b with stack := s.push node :: stack }

def beginInverse (b : Builder) : Except Fault Builder :=
  match b.stack with
  | [] => throw .strayElse
  | s :: stack =>
    if s.inverse.isSome then
      throw (.repeatedElse s.block.name)
    else
      return { b with stack := { s with inverse := some [] } :: stack }

def openSection (b : Builder) (tag : Tag) (inverted : Bool) (call : Call) : Except SyntaxError Builder :=
  (Block.new call inverted).map fun block =>
    { b with
      stack := { block := block.withDelimiters tag.delimiters, position := tag.position } :: b.stack }

def closeSection (b : Builder) (position : Position) (name : String) : Except SyntaxError Builder :=
  match b.stack with
  | [] => throw (.malformed position (.unexpectedClosing name))
  | s :: stack =>
    if s.block.name = name then
      s.close.map fun block => { b with stack }.push block.node
    else
      throw (.malformed position (.mismatchedClosing s.block.name name))

def isElse (tag : Tag) : Bool :=
  (tag.kind == .inverted && tag.content.isEmpty) || (tag.kind == .escaped && tag.content == "else".toList)

def addTag (b : Builder) (tag : Tag) : Except SyntaxError Builder :=
  if isElse tag then
    faulty b.beginInverse
  else
    match tag.kind with
    | .comment => return b.push (.comment (String.ofList tag.content))
    | .opening => do b.openSection tag false (← faulty (readCall tag.content))
    | .inverted => do b.openSection tag true (← faulty (readCall tag.content))
    | .closing => b.closeSection tag.position (String.ofList tag.content)
    | .inclusion =>
      match Text.words tag.content with
      | [] => faulty (throw .missingPath)
      | path :: _ => return b.push (.inclusion (String.ofList path))
    | .escaped => do return b.push (.variable (← faulty (readCall tag.content)) .html)
    | .triple => do return b.push (.variable (← faulty (readCall tag.content)) .triple)
    | .ampersand => do return b.push (.variable (← faulty (readCall tag.content)) .ampersand)
where
  faulty {α : Type} (result : Except Fault α) : Except SyntaxError α :=
    result.mapError (.malformed tag.position)

def add (b : Builder) : Token → Except SyntaxError Builder
  | .text characters => return b.push (.literal (String.ofList characters))
  | .tag tag => b.addTag tag

def finish (b : Builder) : Except SyntaxError Fragment :=
  match b.stack with
  | [] => return b.root
  | s :: _ => throw (.malformed s.position (.unclosedSection s.block.name))

end Builder

end Mustache.Source
