import Upnp.Yaml.Place

/-
Scalars within a line or across several. What lies between two words is a gap: blanks that are
kept, or line breaks with the blanks around them left out, where a single line break becomes a
space. The readers of plain and quoted scalars collect a gap and put its text before the next
word.
-/

namespace Upnp.Yaml

/-- What lies between two words of a scalar. -/
inductive Gap where
  | within (blanks : List Char)
  /-- Line breaks: the first, unless it was escaped, and the later ones. -/
  | across (first : Option Char) (later : List Char)
  deriving Repr, DecidableEq

namespace Gap

def none : Gap := .within []

def addBlank (c : Char) : Gap → Gap
  | .within blanks => .within (blanks ++ [c])
  | gap => gap

def addBreak (c : Char) : Gap → Gap
  | .within _ => .across (some c) []
  | .across first later => .across first (later ++ [c])

def isAcross : Gap → Bool
  | .within _ => false
  | .across _ _ => true

def isEmpty : Gap → Bool
  | .within blanks => blanks.isEmpty
  | .across _ _ => false

/-- The text that stands for the gap. -/
def text : Gap → List Char
  | .within blanks => blanks
  | .across (some '\n') [] => [' ']
  | .across (some '\n') later => later
  | .across first later => first.toList ++ later

end Gap

/-- The content of a scalar and what follows it. -/
structure Content where
  text : List Char
  rest : Places
  /-- Whether the content was followed by a line break that has been read too. -/
  endsLine : Bool := false

def Content.after (before : List Char) (c : Content) : Content :=
  { c with text := before ++ c.text }

/-! ## Quoted scalars -/

/-- The content behind an opening single quote; a quote is written twice. -/
def singleQuoted? (gap : Gap) : Places → Option Content
  | [] => none
  | p :: ps =>
    if isSpaceOrTab p.char then singleQuoted? (gap.addBlank p.char) ps
    else if isBreak p.char then singleQuoted? (gap.addBreak p.char) ps
    else if Places.atDocumentMarker (p :: ps) then none
    else if p.char = '\'' then
      match ps with
      | q :: qs =>
        if q.char = '\'' then (singleQuoted? .none qs).map (·.after (gap.text ++ ['\'']))
        else some { text := gap.text, rest := q :: qs }
      | [] => some { text := gap.text, rest := [] }
    else (singleQuoted? .none ps).map (·.after (gap.text ++ [p.char]))

/-- The characters that a backslash and one character stand for. -/
def escaped? (c : Char) : Option Char :=
  [('0', '\x00'), ('a', '\x07'), ('b', '\x08'), ('t', '\t'), ('\t', '\t'), ('n', '\n'),
    ('v', '\x0B'), ('f', '\x0C'), ('r', '\r'), ('e', '\x1B'), (' ', ' '), ('"', '"'), ('/', '/'),
    ('\\', '\\'), ('N', '\u0085'), ('_', '\u00A0'), ('L', '\u2028'), ('P', '\u2029')].lookup c

/-- The number of hexadecimal digits behind a backslash and a character. -/
def escapeDigits? (c : Char) : Option Nat :=
  [('x', 2), ('u', 4), ('U', 8)].lookup c

/-- The character that hexadecimal digits at the start of a text name. -/
def numbered? (count : Nat) (ps : Places) : Option Char :=
  let digits := Places.chars (ps.take count)
  if digits.length = count then
    (Text.readDigits? 16 digits).bind Text.charOfNat?
  else none

/-- The content behind an opening double quote, the first `skip` characters being part of an
escape already read. -/
def doubleQuoted? (skip : Nat) (gap : Gap) : Places → Option Content
  | [] => none
  | p :: ps =>
    match skip with
    | skip + 1 => doubleQuoted? skip gap ps
    | 0 =>
      if isSpaceOrTab p.char then doubleQuoted? 0 (gap.addBlank p.char) ps
      else if isBreak p.char then doubleQuoted? 0 (gap.addBreak p.char) ps
      else if Places.atDocumentMarker (p :: ps) then none
      else if p.char = '"' then some { text := gap.text, rest := ps }
      else if p.char = '\\' then
        match ps with
        | [] => none
        | q :: qs =>
          if isBreak q.char then
            (doubleQuoted? 0 (.across Option.none []) qs).map (·.after gap.text)
          else do
            let (count, c) ← match escapeDigits? q.char with
              | some count => (numbered? count qs).map (count, ·)
              | none => (escaped? q.char).map (0, ·)
            (doubleQuoted? count .none qs).map (·.after (gap.text ++ [c]))
      else (doubleQuoted? 0 .none ps).map (·.after (gap.text ++ [p.char]))

/-! ## Plain scalars -/

/-- How far a plain scalar reaches. -/
structure Reach where
  inFlow : Bool
  /-- The least column of the lines that continue a scalar. -/
  least : Nat

/-- Whether a plain scalar ends before this character, which stands behind a gap. -/
def Reach.endsBefore (r : Reach) (gap : Gap) (p : Place) (ps : Places) : Bool :=
  Places.atDocumentMarker (p :: ps) || (p.char == '#' && !gap.isEmpty) ||
    (!r.inFlow && gap.isAcross && p.column < r.least) || (p.char == ':' && ps.isWordEnd) ||
    (r.inFlow && [',', '[', ']', '\x7b', '\x7d'].contains p.char)

/-- The content of a plain scalar. -/
def plain? (r : Reach) (gap : Gap) : Places → Option Content
  | [] => some ⟨[], [], gap.isAcross⟩
  | p :: ps =>
    if isSpaceOrTab p.char then
      if gap.isAcross && p.column < r.least && p.char == '\t' then none
      else plain? r (gap.addBlank p.char) ps
    else if isBreak p.char then plain? r (gap.addBreak p.char) ps
    else if r.endsBefore gap p ps then some ⟨[], p :: ps, gap.isAcross⟩
    else if r.inFlow && p.char == ':' &&
        Places.startsWithAny [',', '?', '[', ']', '\x7b', '\x7d'] ps then
      none
    else (plain? r .none ps).map (·.after (gap.text ++ [p.char]))

end Upnp.Yaml
