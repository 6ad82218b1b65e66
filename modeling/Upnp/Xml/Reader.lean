import Upnp.Xml.Event
import Upnp.Xml.Node

/-
Reading a document into trees. Runs of text that no other event parts are one text, which is
dropped when it is blank; names lose their qualifiers, which have to be bound.
-/

namespace Upnp.Xml

/-- An element under way: its tag, the qualifiers bound in it and the nodes before it. -/
structure OpenElement where
  tag : Tag
  bound : List (List Char)
  before : List Node
  deriving Repr

/-- The trees under way: the elements that are open, from the innermost one, the nodes read in
that one, and the text behind them. -/
structure Growth where
  open_ : List OpenElement := []
  nodes : List Node := []
  pending : List Char := []
  deriving Repr

namespace Growth

/-- Ends the text under way. -/
def flush (g : Growth) : Growth :=
  if g.pending.all isSpace then { g with pending := [] }
  else { g with nodes := g.nodes ++ [.text (String.ofList g.pending)], pending := [] }

def push (g : Growth) (n : Node) : Growth :=
  let g := g.flush
  { g with nodes := g.nodes ++ [n] }

/-- The qualifiers bound in the innermost element. -/
def bound (g : Growth) : List (List Char) :=
  (g.open_.head?.map OpenElement.bound).getD []

def addEvent? (g : Growth) : Event → Option Growth
  | .text content => some { g with pending := g.pending ++ content }
  | .cdata content => some (g.push (.cdata (String.ofList content)))
  | .comment content => some (g.push (.comment (String.ofList content)))
  | .instruction target content =>
    some (g.push (.instruction (String.ofList target) (String.ofList content)))
  | .opening tag =>
    if tag.isBound g.bound then
      some { open_ := ⟨tag, tag.bound ++ g.bound, g.flush.nodes⟩ :: g.open_ }
    else none
  | .closing name =>
    match g.open_ with
    | e :: outer =>
      if e.tag.name = name then
        let node := Node.element (String.ofList name.base) e.tag.attributesByName g.flush.nodes
        some { open_ := outer, nodes := e.before ++ [node] }
      else none
    | [] => none

end Growth

/-- The trees of a document. -/
def readAll? (cs : List Char) : Option (List Node) := do
  let growth ← (← events? cs).foldlM Growth.addEvent? {}
  some growth.nodes

/-- Reads the root element of a document. -/
def read? (text : String) : Option Element :=
  (readAll? text.toList).bind fun nodes => (nodes.filterMap Node.toElement?).head?

end Upnp.Xml
