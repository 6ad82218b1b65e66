import Upnp.Xml.Prolog

/-
The events of a document: tags, runs of text, comments and instructions, in document order. What
is checked here is each event by itself and where it may stand; that tags match is not.
-/

namespace Upnp.Xml

open Upnp.Text

inductive Event where
  | opening (tag : Tag)
  | closing (name : QualifiedName)
  | text (content : List Char)
  | cdata (content : List Char)
  | comment (content : List Char)
  | instruction (target content : List Char)
  deriving Repr

/-- How far a document has got. -/
inductive Stage where
  | start
  /-- The document type has been declared. -/
  | typed
  /-- An element has been opened. -/
  | rooted
  deriving Repr, DecidableEq

/-- Entities may expand to this depth. -/
def maxExpansions : Nat := 10

/-- Where the reading of a document stands. -/
structure Position where
  declared : Declared := {}
  stage : Stage := .start
  depth : Nat := 0
  /-- The entities expanded since the outermost one under way. -/
  expansions : Nat := 0
  /-- The length of the text behind the outermost expansion. -/
  outside : Nat := 0
  deriving Repr

/-- A part of a document: its events, the position behind it and the text there. -/
structure Part where
  events : List Event
  position : Position
  rest : List Char
  deriving Repr

namespace Position

/-- Whether the position is inside an element. -/
def isInside (p : Position) : Bool :=
  p.depth != 0

/-- Reads a run of text inside an element. -/
def readText? (p : Position) (cs : List Char) : Option Part :=
  let isPlain (c : Char) := c != '<' && c != '&'
  let run := cs.takeWhile isPlain
  if run.all p.declared.allowsPlainChar && (splitOnce? "]]>".toList run).isNone then
    some ⟨[.text run], p, cs.dropWhile isPlain⟩
  else none

/-- Puts the text of an entity in front of what follows it. -/
def expand? (p : Position) (text rest : List Char) : Option Part :=
  let isOutside := rest.length < p.outside
  let p := if isOutside then { p with expansions := 1, outside := rest.length }
    else { p with expansions := p.expansions + 1 }
  if p.expansions > maxExpansions then none else some ⟨[], p, text ++ rest⟩

/-- Reads a reference behind its ampersand. -/
def readReference? (p : Position) (cs : List Char) : Option Part :=
  match splitOnce? [';'] cs with
  | some (name, rest) =>
    match p.declared.charOf? name with
    | some c => some ⟨[.text [c]], p, rest⟩
    | none => (p.declared.entities.lookup name).bind (p.expand? · rest)
  | none => none

/-- Reads an opening tag behind its bracket; that of an empty element also closes it. -/
def readOpening? (p : Position) (cs : List Char) : Option Part := do
  let (tag, isEmpty, rest) ← Tag.read? p.declared cs
  let p := { p with stage := .rooted }
  if isEmpty then some ⟨[.opening tag, .closing tag.name], p, rest⟩
  else some ⟨[.opening tag], { p with depth := p.depth + 1 }, rest⟩

/-- Reads a processing instruction behind its question mark; none has the name of the
declaration. -/
def readInstruction? (p : Position) (cs : List Char) : Option Part := do
  let target := cs.takeWhile isNameChar
  let isLegal := target.head?.any isNameStart && lowerAscii (String.ofList target) != "xml"
  let (content, rest) ← splitOnce? "?>".toList (cs.dropWhile isNameChar)
  if !isLegal || !content.all p.declared.allowsChar then none
  else
    match content with
    | [] => some ⟨[.instruction target []], p, rest⟩
    | c :: content =>
      if isSpace c then some ⟨[.instruction target content], p, rest⟩ else none

/-- Reads what follows an opening bracket and an exclamation mark. -/
def readDeclaration? (p : Position) (cs : List Char) : Option Part :=
  match cs with
  | '-' :: '-' :: cs =>
    match readComment? cs with
    | some (content, rest) =>
      if content.all p.declared.allowsChar then some ⟨[.comment content], p, rest⟩ else none
    | none => none
  | '[' :: 'C' :: 'D' :: 'A' :: 'T' :: 'A' :: '[' :: cs =>
    match splitOnce? "]]>".toList cs with
    | some (content, rest) =>
      if p.isInside && content.all p.declared.allowsChar then some ⟨[.cdata content], p, rest⟩
      else none
    | none => none
  | 'D' :: 'O' :: 'C' :: 'T' :: 'Y' :: 'P' :: 'E' :: cs =>
    if p.stage = .start then
      (readDoctype? ((cs.length + 1) * (cs.length + 1)) p.declared cs).map fun (declared, rest) =>
        ⟨[], { p with declared, stage := .typed }, rest⟩
    else none
  | _ => none

/-- Reads the first part of a text that is not empty. -/
def read? (p : Position) (cs : List Char) : Option Part :=
  match cs with
  | '<' :: '/' :: cs =>
    if p.isInside then
      (readClosing? cs).map fun (name, rest) =>
        ⟨[.closing name], { p with depth := p.depth - 1 }, rest⟩
    else none
  | '<' :: '!' :: cs => p.readDeclaration? cs
  | '<' :: '?' :: cs => p.readInstruction? cs
  | '<' :: cs => p.readOpening? cs
  | '&' :: cs => if p.isInside then p.readReference? cs else none
  | c :: cs =>
    if p.isInside then p.readText? (c :: cs)
    else if isSpace c then some ⟨[], p, cs⟩
    else none
  | [] => none

end Position

/-- The events of a text from a position to the end of the document, with `fuel` for the steps. -/
def eventsFrom? : (fuel : Nat) → Position → List Char → Option (List Event)
  | _, p, [] => if p.isInside ∨ p.stage ≠ .rooted then none else some []
  | 0, _, _ :: _ => none
  | fuel + 1, p, c :: cs =>
    (p.read? (c :: cs)).bind fun part =>
      (eventsFrom? fuel part.position part.rest).map (part.events ++ ·)

/-- Steps enough for a text whose entities expand to no more than the text allows. -/
def fuelFor (cs : List Char) : Nat :=
  maxExpansions * ((cs.length + 1) * (cs.length + 1))

/-- The events of a document. -/
def events? (cs : List Char) : Option (List Event) := do
  let (is11, cs) ← readDeclaration? cs
  eventsFrom? (fuelFor cs) { declared := { is11 }, outside := cs.length + 1 } cs

end Upnp.Xml
