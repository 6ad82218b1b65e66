import Upnp.Xml.Reference

/-
Names and tags. A name may be qualified by another name in front of a colon; qualifiers are bound
by the namespace declarations among the attributes of a tag.
-/

namespace Upnp.Xml

/-- A name and what qualifies it. -/
structure QualifiedName where
  qualifier : Option (List Char)
  base : List Char
  deriving Repr, DecidableEq

namespace QualifiedName

/-- The name that a text spells. -/
def ofChars? (cs : List Char) : Option QualifiedName :=
  match cs with
  | [] => none
  | c :: _ =>
    if c = ':' ∨ !isNameStart c then none
    else
      match cs.dropWhile (· != ':') with
      | [] => some ⟨none, cs⟩
      | _ :: base =>
        if base.isEmpty ∨ base.contains ':' then none
        else some ⟨some (cs.takeWhile (· != ':')), base⟩

/-- Reads a name and gives the text behind it. -/
def read? (cs : List Char) : Option (QualifiedName × List Char) :=
  (ofChars? (cs.takeWhile isNameChar)).map fun name => (name, cs.dropWhile isNameChar)

/-- Whether the name could be that of an element. -/
def isElementName (n : QualifiedName) : Bool :=
  n.qualifier != some "xml".toList && n.qualifier != some "xmlns".toList

end QualifiedName

/-- An attribute and the text that its value stands for. -/
abbrev Attribute := QualifiedName × List Char

/-- The opening tag of an element. -/
structure Tag where
  name : QualifiedName
  attributes : List Attribute := []
  deriving Repr

/-! ## Reading -/

/-- Reads an equals sign and a quoted value, blanks allowed before each. -/
def readValue? (d : Declared) (cs : List Char) : Option (List Char × List Char) :=
  match cs.dropWhile isSpace with
  | '=' :: cs =>
    match cs.dropWhile isSpace with
    | quote :: cs =>
      if quote = '"' ∨ quote = '\'' then
        match cs.dropWhile (· != quote) with
        | _ :: rest => (d.expand? (cs.takeWhile (· != quote))).map (·, rest)
        | [] => none
      else none
    | [] => none
  | _ => none

/-- Reads the attributes of a tag, each behind white space, and gives the text behind them;
`fuel` bounds their number. -/
def readAttributes? (d : Declared) : (fuel : Nat) → List Char → Option (List Attribute × List Char)
  | 0, _ => none
  | fuel + 1, cs =>
    let rest := cs.dropWhile isSpace
    if rest.head?.any isNameStart then
      if rest.length = cs.length then none
      else do
        let (name, cs) ← QualifiedName.read? rest
        let (value, cs) ← readValue? d cs
        let (more, cs) ← readAttributes? d fuel cs
        some ((name, value) :: more, cs)
    else some ([], rest)

/-! ## Namespaces -/

def xmlNamespace : String := "http://www.w3.org/XML/1998/namespace"

def xmlnsNamespace : String := "http://www.w3.org/2000/xmlns/"

/-- What an attribute is to the names of an element. -/
inductive AttributeRole where
  /-- Binds a qualifier. -/
  | binds (qualifier : List Char)
  /-- Names the namespace of what is not qualified. -/
  | setsDefault
  | plain
  /-- Declares what may not be declared. -/
  | forbidden
  deriving Repr, DecidableEq

/-- The role of an attribute. -/
def roleOf (a : Attribute) : AttributeRole :=
  let value := String.ofList a.2
  if a.1.qualifier = some "xmlns".toList then
    if a.1.base = "xmlns".toList ∨ (a.1.base = "xml".toList ∧ value ≠ xmlNamespace) ∨
        a.2.isEmpty then .forbidden
    else .binds a.1.base
  else if a.1 = ⟨none, "xmlns".toList⟩ then
    if ["xml", "xmlns", xmlNamespace, xmlnsNamespace].contains value then .forbidden
    else .setsDefault
  else .plain

namespace Tag

/-- The attributes that declare no namespace. -/
def plainAttributes (t : Tag) : List Attribute :=
  t.attributes.filter (roleOf · == .plain)

/-- The qualifiers that a tag binds. -/
def bound (t : Tag) : List (List Char) :=
  t.attributes.filterMap fun a =>
    match roleOf a with
    | .binds qualifier => some qualifier
    | _ => none

/-- Whether no two plain attributes have one name and no namespace is declared against the
rules. -/
def hasGoodAttributes (t : Tag) : Bool :=
  t.attributes.all (roleOf · != .forbidden) &&
    (t.plainAttributes.map Prod.fst).Nodup

/-- Whether all qualifiers in a tag are bound, `outer` being bound around it. -/
def isBound (outer : List (List Char)) (t : Tag) : Bool :=
  let isKnown (n : QualifiedName) := n.qualifier.all fun q =>
    q == "xml".toList || q == "xmlns".toList || t.bound.contains q || outer.contains q
  isKnown t.name && t.plainAttributes.all fun a => isKnown a.1

/-- The plain attributes by their names without qualifiers; of equal names the last counts. -/
def attributesByName (t : Tag) : List (String × String) :=
  t.plainAttributes.foldr (fun a out =>
    let name := String.ofList a.1.base
    if (out.lookup name).isSome then out else (name, String.ofList a.2) :: out) []

/-- Reads the tag behind its opening bracket: the tag, whether the element is empty, and the text
behind the closing bracket. -/
def read? (d : Declared) (cs : List Char) : Option (Tag × Bool × List Char) := do
  let (name, cs) ← QualifiedName.read? cs
  let (attributes, cs) ← readAttributes? d (cs.length + 1) cs
  let tag : Tag := ⟨name, attributes⟩
  if !name.isElementName || !tag.hasGoodAttributes then none
  else
    match cs with
    | '>' :: rest => some (tag, false, rest)
    | '/' :: '>' :: rest => some (tag, true, rest)
    | _ => none

end Tag

/-- Reads a closing tag behind its slash. -/
def readClosing? (cs : List Char) : Option (QualifiedName × List Char) := do
  let (name, cs) ← QualifiedName.read? cs
  match cs.dropWhile isSpace with
  | '>' :: rest => if name.isElementName then some (name, rest) else none
  | _ => none

end Upnp.Xml
