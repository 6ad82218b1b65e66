import Upnp.Text.Utf8
import Upnp.Yaml.Plain
import Upnp.Yaml.Tag

/-
The text of a value. Collections that are not empty are written as blocks, a sequence within a
mapping at the column of its key. A string is written plain where it would be read back as it is,
and else in quotes; with line feeds it becomes a block of its own lines.
-/

namespace Upnp.Yaml

open Upnp.Text

/-! ## Styles of strings -/

inductive StringStyle where
  | plain
  | single
  | double
  | literal
  deriving Repr, DecidableEq

/-- Characters that are written as they are; all others are escaped. -/
def isPrintable (c : Char) : Bool :=
  let n := c.toNat
  n == 0xA || (0x20 ≤ n && n ≤ 0x7E) || (0xA0 ≤ n && n ≤ 0xFFFD && n != 0xFEFF) || 0x10000 ≤ n

/-- All line breaks, as they stand in strings. -/
def isAnyBreak (c : Char) : Bool :=
  isBreak c || c == '\r' || c == '\u0085'

def isBlankOrBreak (c : Char) : Bool :=
  isSpaceOrTab c || isAnyBreak c

/-- Whether two characters of these classes stand side by side. -/
def hasNeighbours (first second : Char → Bool) (cs : List Char) : Bool :=
  (cs.zip (cs.drop 1)).any fun (a, b) => first a && second b

/-- Whether a string holds what only escapes can express in any style but the double quoted. -/
def needsEscapes (cs : List Char) : Bool :=
  cs.any (!isPrintable ·) || hasNeighbours (· == ' ') isAnyBreak cs

def allowsSingle (cs : List Char) : Bool :=
  !needsEscapes cs && !hasNeighbours isAnyBreak (· == ' ') cs

def allowsLiteral (cs : List Char) : Bool :=
  !needsEscapes cs && cs.getLast? != some ' '

/-- Characters that no plain string starts with. -/
def indicators : List Char :=
  ['#', ',', '[', ']', '\x7b', '\x7d', '&', '*', '!', '|', '>', '\'', '"', '%', '@', '\x60']

/-- Whether a string starts like something other than a plain string. -/
def startsOtherwise (cs : List Char) : Bool :=
  "---".toList.isPrefixOf cs || "...".toList.isPrefixOf cs ||
    match cs with
    | [] => false
    | c :: rest =>
      indicators.contains c || (['?', ':', '-'].contains c && rest.head?.all isBlankOrBreak)

/-- Whether a string would be taken to end at a comment or a colon within. -/
def endsWithin (cs : List Char) : Bool :=
  hasNeighbours isBlankOrBreak (· == '#') cs ||
    hasNeighbours (· == ':') isBlankOrBreak (cs.drop 1) ||
    ((cs.drop 1).getLast? == some ':')

def allowsPlain (cs : List Char) : Bool :=
  allowsSingle cs && !cs.any isAnyBreak && cs.head? != some ' ' && cs.getLast? != some ' ' &&
    !startsOtherwise cs && !endsWithin cs

/-- The style of a string; a literal one needs lines of its own. -/
def styleOf (s : String) : StringStyle :=
  let cs := s.toList
  if cs.contains '\n' then if allowsLiteral cs then .literal else .double
  else if readsAsString s && allowsPlain cs then .plain
  else if allowsSingle cs then .single
  else .double

/-! ## Texts of strings -/

def spaces (n : Nat) : List Char :=
  List.replicate n ' '

/-- A text whose lines but the first are indented, unless they are empty. -/
def indentLines (indent : Nat) (atStart : Bool) : List Char → List Char
  | [] => []
  | c :: cs =>
    if isAnyBreak c then c :: indentLines indent true cs
    else if atStart then spaces indent ++ c :: indentLines indent false cs
    else c :: indentLines indent false cs

/-- A number in the given count of hexadecimal digits. -/
def hexDigits (count n : Nat) : List Char :=
  let ds := (Nat.toDigits 16 n).map Char.toUpper
  List.replicate (count - ds.length) '0' ++ ds

def escapeChar (c : Char) : List Char :=
  let n := c.toNat
  let named : List (Char × Char) :=
    [('\x00', '0'), ('\x07', 'a'), ('\x08', 'b'), ('\t', 't'), ('\n', 'n'), ('\x0B', 'v'),
      ('\x0C', 'f'), ('\r', 'r'), ('\x1B', 'e'), ('"', '"'), ('\\', '\\'), ('\u0085', 'N'),
      ('\u2028', 'L'), ('\u2029', 'P')]
  match named.lookup c with
  | some e => ['\\', e]
  | none =>
    if isPrintable c then [c]
    else if n ≤ 0xFF then '\\' :: 'x' :: hexDigits 2 n
    else if n ≤ 0xFFFF then '\\' :: 'u' :: hexDigits 4 n
    else '\\' :: 'U' :: hexDigits 8 n

def singleQuotes (indent : Nat) (cs : List Char) : List Char :=
  let doubled := cs.flatMap fun c => if c = '\'' then ['\'', '\''] else [c]
  '\'' :: indentLines indent false (doubled ++ ['\''])

def doubleQuotes (cs : List Char) : List Char :=
  '"' :: cs.flatMap escapeChar ++ ['"']

/-- What stands behind the bar of a literal block: the indentation if the first line would hide
it, and what becomes of the line breaks at the end. -/
def literalHints (indent : Nat) (cs : List Char) : List Char :=
  let startsBlank := cs.head?.any fun c => c == ' ' || isAnyBreak c
  let chomping := match cs.reverse with
    | [] => ['-']
    | [c] => if isAnyBreak c then ['+'] else ['-']
    | c :: d :: _ => if !isAnyBreak c then ['-'] else if isAnyBreak d then ['+'] else []
  (if startsBlank then (Nat.toDigits 10 indent) else []) ++ chomping

/-- A literal block with its header and the line break behind it. -/
def literalBlock (indent : Nat) (cs : List Char) : List Char :=
  let ended := cs.getLast?.any isAnyBreak
  '|' :: literalHints 2 cs ++ '\n' :: indentLines indent true cs ++ if ended then [] else ['\n']

/-- The text of a string with the line break behind it. -/
def stringLines (indent : Nat) (s : String) : List Char :=
  let cs := s.toList
  match styleOf s with
  | .plain => cs ++ ['\n']
  | .single => singleQuotes indent cs ++ ['\n']
  | .double => doubleQuotes cs ++ ['\n']
  | .literal => literalBlock indent cs

/-! ## Texts of values -/

/-- Where the text of a value begins. -/
inductive Position where
  /-- At the start of the document. -/
  | root
  /-- Behind the colon of a key in a mapping at this column. -/
  | ofKey (column : Nat)
  /-- Behind the dash of an item in a sequence at this column. -/
  | ofItem (column : Nat)
  /-- Behind a question mark or a colon that starts a line at this column. -/
  | ofMark (column : Nat)
  deriving Repr, DecidableEq

namespace Position

/-- The column of a block mapping, and of a sequence unless it is a key's. -/
def inner : Position → Nat
  | .root => 0
  | .ofKey n | .ofItem n | .ofMark n => n + 2

def ofSequence : Position → Nat
  | .ofKey n => n
  | p => p.inner

/-- The indentation of the further lines of a scalar. -/
def ofLines : Position → Nat
  | .root => 2
  | p => p.inner

/-- Whether a block begins in the line of what stands before it. -/
def isInLine : Position → Bool
  | .ofItem _ | .ofMark _ => true
  | _ => false

/-- The position behind a tag: a block now begins in a line of its own. -/
def behindTag : Position → Position
  | .ofMark n => .ofKey n
  | p => p

/-- Puts a scalar or an empty collection behind what stands before it. -/
def put (p : Position) (isTagged : Bool) (cs : List Char) : List Char :=
  if p = .root && !isTagged then cs else ' ' :: cs

/-- Puts a block whose lines are indented to a column behind what stands before it. -/
def putBlock (p : Position) (column : Nat) (isTagged : Bool) (lines : List Char) : List Char :=
  if p.isInLine && !isTagged then ' ' :: lines.drop column
  else if p = .root && !isTagged then lines
  else '\n' :: lines

end Position

/-- The characters of tags that are written as they are. -/
def isPlainTagChar (c : Char) : Bool :=
  isUriChar c && c != '%' && c != '!'

def tagText (name : String) : List Char :=
  '!' :: name.toList.flatMap fun c =>
    if isPlainTagChar c then [c]
    else (Utf8.encodeChar c).flatMap fun b => '%' :: hexDigits 2 b.toNat

/-- The octets that a key may have to be written before its colon in one line. -/
def maxSimpleKey : Nat := 128

/-- The size of a scalar in one line or of an empty collection. -/
def Value.lineSize? : Value → Option Nat
  | .null => some 4
  | .bool b => some (if b then 4 else 5)
  | .number n => some (Utf8.size n.text)
  | .string s => if s.toList.any isAnyBreak then none else some (Utf8.size s)
  | .sequence [] | .mapping [] => some 0
  | .sequence _ | .mapping _ => none
  | .tagged name v => v.lineSize?.map (· + (tagText name).length)

/-- Whether a key is written before its colon in one line. -/
def Value.isSimpleKey (v : Value) : Bool :=
  v.lineSize?.any (· ≤ maxSimpleKey)

mutual

/-- The text of a value from its position to the end of its last line. -/
def Value.lines (p : Position) (isTagged : Bool) : Value → List Char
  | .null => p.put isTagged "null\n".toList
  | .bool b => p.put isTagged (if b then "true\n".toList else "false\n".toList)
  | .number n => p.put isTagged (n.text.toList ++ ['\n'])
  | .string s => p.put isTagged (stringLines p.ofLines s)
  | .sequence [] => p.put isTagged "[]\n".toList
  | .sequence (item :: items) =>
    p.putBlock p.ofSequence isTagged (itemLines p.ofSequence (item :: items))
  | .mapping [] => p.put isTagged ['\x7b', '\x7d', '\n']
  | .mapping (e :: es) => p.putBlock p.inner isTagged (entriesLines p.inner (e :: es))
  | .tagged name v => p.put isTagged (tagText name) ++ v.lines p.behindTag true

def itemLines (column : Nat) : List Value → List Char
  | [] => []
  | item :: items =>
    spaces column ++ '-' :: item.lines (.ofItem column) false ++ itemLines column items

def entriesLines (column : Nat) : Entries → List Char
  | [] => []
  | e :: es => entryLines column e ++ entriesLines column es

def entryLines (column : Nat) : Value × Value → List Char
  | (key, value) =>
    if key.isSimpleKey then
      spaces column ++ (key.lines .root false).dropLast ++ ':' :: value.lines (.ofKey column) false
    else
      spaces column ++ '?' :: key.lines (.ofMark column) false ++
        spaces column ++ ':' :: value.lines (.ofMark column) false

end

/-- The text of a document with a value. -/
def write (v : Value) : String :=
  String.ofList (v.lines .root false)

end Upnp.Yaml
