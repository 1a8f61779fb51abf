import Mustache.Tree.Text
import Mustache.Source.SyntaxError

/-!
This module contains sections under construction.
-/

namespace Mustache

/--
A section that is put together step by step. Its body can be attached once.
-/
structure Block where
  opening : Opening
  body : Option Fragment := none
  inverse : Option Fragment := none

namespace Block

def new (call : Call) (inverted : Bool) : Except SyntaxError Block :=
  if call.name = "" then
    throw .emptyName
  else
    return { opening := { call, inverted, delimiters := .standard } }

def name (b : Block) : String :=
  b.opening.call.name

def withDelimiters (b : Block) (d : Delimiters) : Block :=
  { b with opening := { b.opening with delimiters := d } }

def setBody (b : Block) (body : Fragment) : Except SyntaxError Block :=
  if b.body.isSome then
    throw (.bodyAlreadySet b.name)
  else
    return { b with body := some body }

def setInverse (b : Block) (inverse : Fragment) : Block :=
  { b with inverse := some inverse }

def node (b : Block) : Node :=
  .block b.opening b.body b.inverse

def textWith (b : Block) (d : Delimiters) : String :=
  b.node.textWith d

def text (b : Block) : String :=
  b.textWith .standard

def summary (b : Block) : String :=
  b.opening.wrap .standard " ... "

end Block

end Mustache
