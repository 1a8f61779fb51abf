import Mustache.Date.Gregorian
import Mustache.Render.Walk

/-!
This module contains the hosts and engines that the instances of statements are about.
-/

namespace Mustache

namespace Host

/--
A host whose objects have no members and whose lambdas give back nothing.
-/
def inert : Host Unit where
  member _ _ := pure none
  elements _ := pure none
  objectCallable? _ := none
  callable _ _ _ := pure .null
  objectText _ := ""
  objectDebug _ := ""

/--
A host that counts how often objects were asked for their elements, and may answer as the count is. Its lambdas tell the
count.
-/
def counting (answer : Nat → Option (List Value)) : Host Nat where
  member _ _ := pure none
  elements _ := modifyGet fun asked => (answer asked, asked + 1)
  objectCallable? _ := none
  callable _ _ _ := return .ofNat (← get)
  objectText _ := ""
  objectDebug _ := ""

end Host

def Engine.inert : Engine Unit :=
  .standard .inert .gregorian

def Engine.counting (answer : Nat → Option (List Value)) : Engine Nat :=
  .standard (.counting answer) .gregorian

end Mustache
