import Upnp.Text.Utf8
import Upnp.Yaml.Place

/-
Tags, anchors and directives. A tag is written out between angle brackets, or as a handle and a
suffix, where a directive says what the handle stands for.
-/

namespace Upnp.Yaml

open Upnp.Text

/-- A tag as written: its handle, empty for a tag written out, and the rest of it. -/
structure TagName where
  handle : List Char
  suffix : List Char
  deriving Repr, DecidableEq

/-! ## Parts of tags -/

def isTagChar (c : Char) : Bool :=
  isNameChar c ||
    [';', '/', '?', ':', '@', '&', '=', '+', '$', '.', '%', '!', '~', '*', '\'', '(',
      ')'].contains c

/-- Characters of tags that are written out and of what handles stand for. -/
def isUriChar (c : Char) : Bool :=
  isTagChar c || [',', '[', ']'].contains c

/-- The octets of a text with percent signs and hexadecimal digits. -/
def unescapedOctets? : List Char → Option Utf8.Octets
  | [] => some []
  | '%' :: a :: b :: cs => do
    let n ← readDigits? 16 [a, b]
    (unescapedOctets? cs).map (UInt8.ofNat n :: ·)
  | c :: cs => if c = '%' then none else (unescapedOctets? cs).map (Utf8.encodeChar c ++ ·)

/-- Reads characters of a class, percent signs and hexadecimal digits standing for octets. -/
def readUri? (isPart : Char → Bool) (ps : Places) : Option (List Char × Places) := do
  let octets ← unescapedOctets? (Places.chars (ps.takeWhile fun p => isPart p.char))
  let cs ← (Utf8.decodeChars octets).toOption
  some (cs, ps.dropWhile fun p => isPart p.char)

/-- Reads a handle: an exclamation mark and, maybe, a name and another one. -/
def readHandle? : Places → Option (List Char × Places)
  | [] => none
  | p :: ps =>
    if p.char ≠ '!' then none
    else
      let name := Places.chars (ps.takeWhile fun p => isNameChar p.char)
      let rest := ps.dropWhile fun p => isNameChar p.char
      if Places.startsWith '!' rest then some ('!' :: name ++ ['!'], rest.drop 1)
      else some ('!' :: name, rest)

/-- Whether a handle has two exclamation marks, and so does not run on into a suffix. -/
def isClosedHandle (handle : List Char) : Bool :=
  2 ≤ handle.length && handle.getLast? == some '!'

/-! ## Tags and anchors -/

/-- Reads a tag between angle brackets behind the opening one. -/
def readVerbatim? (ps : Places) : Option (TagName × Places) := do
  let (suffix, rest) ← readUri? isUriChar ps
  if suffix.isEmpty || !Places.startsWith '>' rest then none
  else some (⟨[], suffix⟩, rest.drop 1)

/-- Reads a tag of a handle and a suffix; an exclamation mark by itself is a tag, too. -/
def readShorthand? (ps : Places) : Option (TagName × Places) := do
  let (handle, rest) ← readHandle? ps
  let (suffix, rest) ← readUri? isTagChar rest
  if isClosedHandle handle then
    if suffix.isEmpty then none else some (⟨handle, suffix⟩, rest)
  else
    match handle.drop 1 ++ suffix with
    | [] => some (⟨[], ['!']⟩, rest)
    | cs => some (⟨['!'], cs⟩, rest)

/-- Reads a tag at its exclamation mark. -/
def readTag? (inFlow : Bool) (ps : Places) : Option (TagName × Places) := do
  let (tag, rest) ←
    if Places.startsWith '<' (ps.drop 1) then readVerbatim? (ps.drop 2) else readShorthand? ps
  if Places.isWordEnd rest || (inFlow && Places.startsWith ',' rest) then some (tag, rest)
  else none

/-- Reads the name of an anchor. -/
def readAnchor? (ps : Places) : Option (String × Places) :=
  let name := Places.chars (ps.takeWhile fun p => isNameChar p.char)
  let rest := ps.dropWhile fun p => isNameChar p.char
  if name.isEmpty then none
  else if Places.isWordEnd rest ||
      Places.startsWithAny ['?', ':', ',', ']', '\x7d', '%', '@', '\x60'] rest then
    some (String.ofList name, rest)
  else none

/-! ## Directives -/

inductive Directive where
  | version (major minor : Nat)
  /-- What a handle stands for. -/
  | handle (name replacement : List Char)
  deriving Repr, DecidableEq

/-- Reads a number of at most nine digits. -/
def readVersionNumber? (ps : Places) : Option (Nat × Places) :=
  let digits := Places.chars (ps.takeWhile fun p => p.char.isDigit)
  if digits.length ≤ 9 then
    (readDigits? 10 digits).map (·, ps.dropWhile fun p => p.char.isDigit)
  else none

def readVersion? (ps : Places) : Option (Directive × Places) := do
  let (major, rest) ← readVersionNumber? ps
  if Places.startsWith '.' rest then
    let (minor, rest) ← readVersionNumber? (rest.drop 1)
    some (.version major minor, rest)
  else none

def readHandleDirective? (ps : Places) : Option (Directive × Places) := do
  let (name, rest) ← readHandle? ps
  let isHandle := isClosedHandle name || name == ['!']
  let (replacement, after) ← readUri? isUriChar rest.dropBlanks
  if isHandle && rest.dropBlanks.length < rest.length && !replacement.isEmpty &&
      Places.isWordEnd after then
    some (.handle name replacement, after)
  else none

/-- Reads a directive behind its percent sign, to the end of its line. -/
def readDirective? (ps : Places) : Option (Directive × Places) := do
  let name := Places.chars (ps.takeWhile fun p => isNameChar p.char)
  let rest : Places := ps.dropWhile fun p => isNameChar p.char
  if !Places.isWordEnd rest then none
  else
    let (directive, rest) ←
      if name = "YAML".toList then readVersion? rest.dropBlanks
      else if name = "TAG".toList then readHandleDirective? rest.dropBlanks
      else none
    some (directive, ← rest.nextLine?)

end Upnp.Yaml
