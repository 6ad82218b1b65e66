import Upnp.Yaml.Folding

/-
Block scalars: the indented lines below a bar, which keep their line breaks, or below a greater-than
sign, which are folded into paragraphs. Behind the sign may stand how far the lines are indented
and what becomes of the line breaks at their end.
-/

namespace Upnp.Yaml

/-- What becomes of the line breaks at the end of a block. -/
inductive Chomping where
  /-- None is kept. -/
  | strip
  /-- The first is kept. -/
  | clip
  /-- All are kept. -/
  | keep
  deriving Repr, DecidableEq

def Chomping.finish (leading : Option Char) (later : List Char) : Chomping → List Char
  | .strip => []
  | .clip => leading.toList
  | .keep => leading.toList ++ later

/-! ## Header -/

structure BlockHeader where
  chomping : Chomping := .clip
  /-- How far the lines are indented beyond the block around them. -/
  increment : Option Nat := none

/-- Reads an optional sign for the chomping. -/
def readChomping : Places → Option Chomping × Places
  | [] => (none, [])
  | p :: ps =>
    if p.char = '+' then (some .keep, ps)
    else if p.char = '-' then (some .strip, ps)
    else (none, p :: ps)

/-- Reads an optional digit for the indentation, which is not zero. -/
def readIncrement? : Places → Option (Option Nat × Places)
  | [] => some (none, [])
  | p :: ps =>
    match Text.digitIn? 10 p.char with
    | some 0 => none
    | some d => some (some d, ps)
    | none => some (none, p :: ps)

/-- Reads the header of a block up to the first line of its content. -/
def readHeader? (ps : Places) : Option (BlockHeader × Places) := do
  let (before, ps) := readChomping ps
  let (increment, ps) ← readIncrement? ps
  let (after, ps) := if before.isNone && increment.isSome then readChomping ps else (none, ps)
  let ps ← ps.nextLine?
  some (⟨(before.or after).getD .clip, increment⟩, ps)

/-! ## Content -/

/-- The indentation of the first line that is not empty, or of the longest empty one before it. -/
def firstIndent? (longest : Nat) : Places → Option Nat
  | [] => some longest
  | p :: ps =>
    if p.char = ' ' then firstIndent? longest ps
    else if p.char = '\t' then none
    else if isBreak p.char then firstIndent? (max longest p.column) ps
    else some (max longest p.column)

/-- Where the reading of a block stands. -/
inductive BlockState where
  /-- At the start of a line: the break before it, whether the line before started with a blank,
  and the breaks of the empty lines since. -/
  | between (leading : Option Char) (wasIndented : Bool) (later : List Char)
  /-- In a line that started with a blank or did not. -/
  | within (isIndented : Bool)

/-- The text that line breaks between two lines stand for. -/
def joinLines (folded : Bool) (leading : Option Char) (later : List Char) (anyIndented : Bool) :
    List Char :=
  if folded && leading == some '\n' && !anyIndented then
    if later.isEmpty then [' '] else later
  else leading.toList ++ later

/-- The content of a block whose lines start at the column `indent`. -/
def blockContent? (folded : Bool) (chomping : Chomping) (indent : Nat) :
    BlockState → Places → Option Content
  | .within _, [] => some { text := [], rest := [] }
  | .within isIndented, p :: ps =>
    if isBreak p.char then
      blockContent? folded chomping indent (.between (some p.char) isIndented []) ps
    else
      (blockContent? folded chomping indent (.within isIndented) ps).map (·.after [p.char])
  | .between leading _ later, [] => some { text := chomping.finish leading later, rest := [] }
  | .between leading wasIndented later, p :: ps =>
    if p.column < indent && p.char == ' ' then
      blockContent? folded chomping indent (.between leading wasIndented later) ps
    else if p.column < indent && p.char == '\t' then none
    else if isBreak p.char then
      blockContent? folded chomping indent (.between leading wasIndented (later ++ [p.char])) ps
    else if p.column == indent then
      let isIndented := isSpaceOrTab p.char
      let gap := joinLines folded leading later (wasIndented || isIndented)
      (blockContent? folded chomping indent (.within isIndented) ps).map
        (·.after (gap ++ [p.char]))
    else some { text := chomping.finish leading later, rest := p :: ps }

/-- The content behind the sign of a block that stands in a block at column `parent`. -/
def blockScalar? (folded : Bool) (parent : Option Nat) (ps : Places) : Option Content := do
  let (header, ps) ← readHeader? ps
  let indent ← match header.increment with
    | some n => some (parent.getD 0 + n)
    | none => (firstIndent? 0 ps).map fun n => max n (max 1 (parent.elim 0 (· + 1)))
  blockContent? folded header.chomping indent (.between none false []) ps

end Upnp.Yaml
