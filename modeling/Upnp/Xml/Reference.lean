import Upnp.Xml.Char

/-
References in the text and the attribute values of a document: characters by number or by one of
the predefined names, and entities that the document declares. An entity in text is read as markup
in its place, one in an attribute value is taken as it stands.
-/

namespace Upnp.Xml

/-- What the start of a document lays down for the rest of it. -/
structure Declared where
  /-- The document is of version 1.1. -/
  is11 : Bool := false
  /-- The entities with their texts; the first of a name counts. -/
  entities : List (List Char × List Char) := []
  deriving Repr

namespace Declared

/-- Whether a character may be named by number. -/
def allowsChar (d : Declared) (c : Char) : Bool :=
  if d.is11 then isXml11Char c else isXmlChar c

/-- Whether a character may stand in text by itself. -/
def allowsPlainChar (d : Declared) (c : Char) : Bool :=
  let n := c.toNat
  if d.is11 then
    isXml11Char c && !(n ≤ 8 || n == 11 || n == 12 || (14 ≤ n && n ≤ 31) ||
      (127 ≤ n && n ≤ 132) || (134 ≤ n && n ≤ 159))
  else isXmlChar c

/-- The character that a reference names by number or by predefined name. -/
def charOf? (d : Declared) (name : List Char) : Option Char :=
  match name with
  | '#' :: number => (charOfNumber? number).filter d.allowsChar
  | name => predefined? name

/-- The text that a reference in an attribute value stands for. -/
def textOf? (d : Declared) (name : List Char) : Option (List Char) :=
  match d.charOf? name with
  | some c => some [c]
  | none => d.entities.lookup name

/-- The text that an attribute value stands for; `name` is the reference under way. An opening
bracket is malformed unless a slash follows it. -/
def expandFrom? (d : Declared) : (name : Option (List Char)) → List Char → Option (List Char)
  | none, [] => some []
  | some _, [] => none
  | none, c :: cs =>
    if c = '&' then d.expandFrom? (some []) cs
    else if (c = '<' ∧ cs.head? ≠ some '/') ∨ !d.allowsPlainChar c then none
    else (d.expandFrom? none cs).map (c :: ·)
  | some name, c :: cs =>
    if c = ';' then
      match d.textOf? name, d.expandFrom? none cs with
      | some text, some rest => some (text ++ rest)
      | _, _ => none
    else d.expandFrom? (some (name ++ [c])) cs

/-- The text that an attribute value as written stands for. -/
def expand? (d : Declared) (cs : List Char) : Option (List Char) :=
  d.expandFrom? none cs

end Declared

end Upnp.Xml
