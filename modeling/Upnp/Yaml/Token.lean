import Upnp.Yaml.Block
import Upnp.Yaml.Tag

/-
The tokens of a document. Indentation becomes tokens that open and close blocks, and what turns
out to be a key only at the colon behind it has a token put before it afterwards. A place where
a key may have begun is kept for each flow collection that is open.
-/

namespace Upnp.Yaml

inductive Token where
  | directive (d : Directive)
  | documentStart
  | documentEnd
  | blockSequence
  | blockMapping
  | blockEnd
  | flowSequence
  | flowSequenceEnd
  | flowMapping
  | flowMappingEnd
  /-- The dash before an entry of a block sequence. -/
  | dash
  | comma
  | key
  | value
  | alias (name : String)
  | anchor (name : String)
  | tag (name : TagName)
  | scalar (isPlain : Bool) (text : List Char)
  deriving Repr, DecidableEq

/-- A token that begins a key if a colon follows. -/
structure KeyStart where
  /-- The number of tokens before it. -/
  position : Nat
  place : Place
  /-- It stands where only a key can. -/
  isRequired : Bool

/-- The octets that a key may have before its colon. -/
def maxKeySize : Nat := 1024

/-- What has been read of a document. -/
structure Layout where
  tokens : Array Token := #[]
  /-- The columns of the open blocks, the innermost first. -/
  blocks : List Nat := []
  /-- Whether a key may begin here. -/
  allowsKey : Bool := true
  keyStart : Option KeyStart := none
  /-- The places where keys may have begun around the innermost flow collection. -/
  outerStarts : List (Option KeyStart) := []

namespace Layout

def inFlow (l : Layout) : Bool :=
  !l.outerStarts.isEmpty

def push (t : Token) (l : Layout) : Layout :=
  { l with tokens := l.tokens.push t }

/-! ## Blocks -/

/-- Closes the blocks whose columns satisfy `isLeft`. -/
def closeBlocks (isLeft : Nat → Bool) (l : Layout) : Layout :=
  if l.inFlow then l
  else
    let closed := l.blocks.takeWhile isLeft
    { l with
      tokens := l.tokens ++ closed.map fun _ => Token.blockEnd
      blocks := l.blocks.dropWhile isLeft }

/-- Opens a block at a column if it lies within the innermost one, with its token put at a
position. -/
def openBlock (t : Token) (column position : Nat) (l : Layout) : Layout :=
  if l.inFlow || l.blocks.head?.any (column ≤ ·) then l
  else
    { l with
      tokens := l.tokens.insertIdxIfInBounds position t
      blocks := column :: l.blocks }

/-! ## Starts of keys -/

/-- Gives up a place where a key may have begun. -/
def dropKeyStart? (l : Layout) : Option Layout :=
  if l.keyStart.any (·.isRequired) then none else some { l with keyStart := none }

/-- Notes that a key may begin here. -/
def saveKeyStart? (p : Place) (l : Layout) : Option Layout :=
  if l.allowsKey then do
    let isRequired := !l.inFlow && l.blocks.head? == some p.column
    let l ← l.dropKeyStart?
    some { l with keyStart := some ⟨l.tokens.size, p, isRequired⟩ }
  else some l

/-- Whether a key that began there can still have its colon here. -/
def KeyStart.reaches (k : KeyStart) (p : Place) : Bool :=
  k.place.line == p.line && p.offset ≤ k.place.offset + maxKeySize

/-- Gives up the places from which a key would reach too far. -/
def expireKeyStarts? (p : Place) (l : Layout) : Option Layout :=
  let isLost (k : Option KeyStart) := k.any fun k => k.isRequired && !KeyStart.reaches k p
  let kept (k : Option KeyStart) := k.filter (KeyStart.reaches · p)
  if (l.keyStart :: l.outerStarts).any isLost then none
  else some { l with keyStart := kept l.keyStart, outerStarts := l.outerStarts.map kept }

/-! ## Tokens -/

/-- A token that opens or closes a part, behind which a key may begin or not. -/
def structural (t : Token) (allowsKey : Bool) (l : Layout) : Layout :=
  { l.push t with allowsKey }

def openFlow? (t : Token) (p : Place) (l : Layout) : Option Layout := do
  let l ← l.saveKeyStart? p
  let nested := { l with keyStart := none, outerStarts := l.keyStart :: l.outerStarts }
  some (nested.structural t true)

def closeFlow? (t : Token) (l : Layout) : Option Layout := do
  let l ← l.dropKeyStart?
  let outer := { l with
    keyStart := l.outerStarts.head?.getD none
    outerStarts := l.outerStarts.drop 1 }
  some (outer.structural t false)

def comma? (l : Layout) : Option Layout := do
  let l ← l.dropKeyStart?
  some (l.structural .comma true)

/-- An indicator that opens a block where none is open yet. -/
def indicator? (t block : Token) (allowsKey : Bool) (p : Place) (l : Layout) : Option Layout := do
  if !l.inFlow && !l.allowsKey then none
  else
    let l ← (l.openBlock block p.column l.tokens.size).dropKeyStart?
    some (l.structural t allowsKey)

def dash? (p : Place) (l : Layout) : Option Layout :=
  l.indicator? .dash .blockSequence true p

def questionMark? (p : Place) (l : Layout) : Option Layout :=
  l.indicator? .key .blockMapping (!l.inFlow) p

/-- A colon: what began at the place noted is a key, or else the key is empty. -/
def colon? (p : Place) (l : Layout) : Option Layout :=
  match l.keyStart with
  | some k =>
    let keyed := { l with
      tokens := l.tokens.insertIdxIfInBounds k.position .key
      keyStart := none }
    some ((keyed.openBlock .blockMapping k.place.column k.position).structural .value false)
  | none =>
    if !l.inFlow && !l.allowsKey then none
    else
      let l := l.openBlock .blockMapping p.column l.tokens.size
      some (l.structural .value (!l.inFlow))

/-- A token that may begin a key. -/
def leaf? (t : Token) (p : Place) (l : Layout) : Option Layout := do
  let l ← l.saveKeyStart? p
  some (l.structural t false)

/-- A marker or directive, which ends all blocks. -/
def topLevel? (t : Token) (l : Layout) : Option Layout := do
  let l ← (l.closeBlocks fun _ => true).dropKeyStart?
  some (l.structural t false)

/-! ## Reading -/

/-- Leaves out what stands between tokens; behind a line break in a block a key may begin. -/
def skipToToken (inFlow allowsKey inComment : Bool) : Places → Bool × Places
  | [] => (allowsKey, [])
  | p :: ps =>
    if isBreak p.char then skipToToken inFlow (allowsKey || !inFlow) false ps
    else if inComment || p.char = '#' then skipToToken inFlow allowsKey true ps
    else if p.char = ' ' || (p.char == '\t' && (inFlow || !allowsKey)) ||
        (p.char == '\uFEFF' && p.column == 0) then
      skipToToken inFlow allowsKey false ps
    else (allowsKey, p :: ps)

def plainScalar? (l : Layout) (ps : Places) (p : Place) : Option (Layout × Places) := do
  let l ← l.saveKeyStart? p
  let c ← plain? ⟨l.inFlow, l.blocks.head?.elim 0 (· + 1)⟩ .none ps
  some (l.structural (.scalar true c.text) c.endsLine, c.rest)

def quotedScalar? (l : Layout) (c : Option Content) (p : Place) : Option (Layout × Places) := do
  let c ← c
  some (← l.leaf? (.scalar false c.text) p, c.rest)

def blockText? (l : Layout) (folded : Bool) (rest : Places) : Option (Layout × Places) := do
  let l ← l.dropKeyStart?
  let c ← blockScalar? folded l.blocks.head? rest
  some (l.structural (.scalar false c.text) true, c.rest)

/-- Reads the token that begins with the character `p`. -/
def read? (l : Layout) (p : Place) (rest : Places) : Option (Layout × Places) :=
  let ps := p :: rest
  if p.column = 0 && p.char = '%' then do
    let (d, rest) ← readDirective? rest
    some (← l.topLevel? (.directive d), rest)
  else if Places.atMarker '-' ps then (l.topLevel? .documentStart).map (·, rest.drop 2)
  else if Places.atMarker '.' ps then (l.topLevel? .documentEnd).map (·, rest.drop 2)
  else
    let endsWord := Places.isWordEnd rest
    match p.char with
    | '[' => (l.openFlow? .flowSequence p).map (·, rest)
    | '\x7b' => (l.openFlow? .flowMapping p).map (·, rest)
    | ']' => (l.closeFlow? .flowSequenceEnd).map (·, rest)
    | '\x7d' => (l.closeFlow? .flowMappingEnd).map (·, rest)
    | ',' => l.comma?.map (·, rest)
    | '-' => if endsWord then (l.dash? p).map (·, rest) else l.plainScalar? ps p
    | '?' =>
      if l.inFlow || endsWord then (l.questionMark? p).map (·, rest) else l.plainScalar? ps p
    | ':' => if l.inFlow || endsWord then (l.colon? p).map (·, rest) else l.plainScalar? ps p
    | '*' => do
      let (name, rest) ← readAnchor? rest
      some (← l.leaf? (.alias name) p, rest)
    | '&' => do
      let (name, rest) ← readAnchor? rest
      some (← l.leaf? (.anchor name) p, rest)
    | '!' => do
      let (tag, rest) ← readTag? l.inFlow ps
      some (← l.leaf? (.tag tag) p, rest)
    | '\'' => l.quotedScalar? (singleQuoted? .none rest) p
    | '"' => l.quotedScalar? (doubleQuoted? 0 .none rest) p
    | '|' => if l.inFlow then none else l.blockText? false rest
    | '>' => if l.inFlow then none else l.blockText? true rest
    | c =>
      if ['#', '%', '@', '\x60'].contains c || Places.isWordEnd ps then none
      else l.plainScalar? ps p

/-- Closes what is open at the end of the document. -/
def finish? (l : Layout) : Option (Array Token) :=
  (l.closeBlocks fun _ => true).dropKeyStart?.map (·.tokens)

/-- Reads all tokens; each takes a character at least, so `steps` more than there are suffice. -/
def readAll? : Nat → Layout → Places → Option (Array Token)
  | 0, _, _ => none
  | steps + 1, l, ps => do
    let (allowsKey, ps) := skipToToken l.inFlow l.allowsKey false ps
    match ps with
    | [] => l.finish?
    | p :: rest =>
      let l ← { l with allowsKey }.expireKeyStarts? p
      let (l, ps) ← (l.closeBlocks (p.column < ·)).read? p rest
      readAll? steps l ps

end Layout

/-- The tokens of a document. -/
def tokens? (ps : Places) : Option (List Token) :=
  (Layout.readAll? (ps.length + 1) {} ps).map Array.toList

end Upnp.Yaml
