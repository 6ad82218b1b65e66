import Upnp.Text.Digit

/-
The characters of a document with their places. Indentation and keys depend on lines and columns,
so these are worked out once, and the readers of the parts of a document are functions on lists
of placed characters.
-/

namespace Upnp.Yaml

/-- A character and where it stands. -/
structure Place where
  char : Char
  line : Nat
  column : Nat
  /-- The octets of the document before the character. -/
  offset : Nat
  deriving Repr, DecidableEq

/-! ## Characters -/

/-- Characters that a document may hold. -/
def isYamlChar (c : Char) : Bool :=
  let n := c.toNat
  n == 9 || n == 0xA || n == 0xD || (0x20 ≤ n && n ≤ 0x7E) || n == 0x85 ||
    (0xA0 ≤ n && n ≤ 0xFFFD) || 0x10000 ≤ n

def isSpaceOrTab (c : Char) : Bool :=
  c == ' ' || c == '\t'

/-- Line breaks, all of which but the two Unicode separators are read as line feeds. -/
def isBreak (c : Char) : Bool :=
  c == '\n' || c == '\u2028' || c == '\u2029'

/-- Characters of the names of anchors, directives and tag handles. -/
def isNameChar (c : Char) : Bool :=
  c.isAlphanum || c == '-' || c == '_'

/-! ## Placing -/

def placesFrom? (line column offset : Nat) : List Char → Option (List Place)
  | [] => some []
  | '\r' :: '\n' :: cs =>
    (placesFrom? (line + 1) 0 (offset + 2) cs).map (⟨'\n', line, column, offset⟩ :: ·)
  | c :: cs =>
    let char := if c = '\r' ∨ c = '\u0085' then '\n' else c
    let place : Place := ⟨char, line, column, offset⟩
    if !isYamlChar c then none
    else if isBreak char then
      (placesFrom? (line + 1) 0 (offset + c.utf8Size) cs).map (place :: ·)
    else (placesFrom? line (column + 1) (offset + c.utf8Size) cs).map (place :: ·)

/-- The placed characters of a text, unless it holds a character that no document may. -/
def places? (cs : List Char) : Option (List Place) :=
  placesFrom? 0 0 0 cs

/-! ## Looking ahead -/

abbrev Places := List Place

namespace Places

def chars (ps : Places) : List Char :=
  ps.map Place.char

/-- Whether a word ends here: at a blank, a line break or the end. -/
def isWordEnd : Places → Bool
  | [] => true
  | p :: _ => isSpaceOrTab p.char || isBreak p.char

def startsWith (c : Char) : Places → Bool
  | [] => false
  | p :: _ => p.char == c

def startsWithAny (cs : List Char) : Places → Bool
  | [] => false
  | p :: _ => cs.contains p.char

/-- Whether a line starts here with the marker of a document's start or end. -/
def atMarker (marker : Char) (ps : Places) : Bool :=
  match ps with
  | a :: b :: c :: rest =>
    a.column == 0 && a.char == marker && b.char == marker && c.char == marker && isWordEnd rest
  | _ => false

def atDocumentMarker (ps : Places) : Bool :=
  ps.atMarker '-' || ps.atMarker '.'

def dropBlanks (ps : Places) : Places :=
  ps.dropWhile fun p => isSpaceOrTab p.char

/-- Leaves out a comment up to the end of its line. -/
def dropComment (ps : Places) : Places :=
  if ps.startsWith '#' then ps.dropWhile fun p => !isBreak p.char else ps

/-- What follows if nothing but blanks and a comment stand before the end of the line. -/
def nextLine? (ps : Places) : Option Places :=
  match ps.dropBlanks.dropComment with
  | [] => some []
  | p :: rest => if isBreak p.char then some rest else none

end Places

end Upnp.Yaml
