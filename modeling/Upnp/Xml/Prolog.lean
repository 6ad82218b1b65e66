import Upnp.Text.Split
import Upnp.Text.Utf8
import Upnp.Xml.Tag

/-
What may stand before the root of a document: the declaration with version and encoding, and the
declaration of the document type, of which the entities are kept.
-/

namespace Upnp.Xml

open Upnp.Text

/-! ## The declaration -/

/-- The encodings that a document in UTF-8 may claim to have. -/
inductive Encoding where
  | utf8
  | latin1
  | ascii
  deriving Repr, DecidableEq

def Encoding.ofName? (name : String) : Option Encoding :=
  match lowerAscii name with
  | "utf-8" => some .utf8
  | "utf8" => some .utf8
  | "iso-8859-1" => some .latin1
  | "latin1" => some .latin1
  | "ascii" => some .ascii
  | "us-ascii" => some .ascii
  | _ => none

/-- What the octets of a text are in an encoding. -/
def Encoding.reread? (e : Encoding) (cs : List Char) : Option (List Char) :=
  match e with
  | .utf8 => some cs
  | .latin1 => some ((Utf8.encodeChars cs).map fun b => Char.ofNat b.toNat)
  | .ascii => if cs.all (·.toNat < 128) then some cs else none

/-- Whether a declaration says version 1.1, and the encoding it claims. -/
structure Declaration where
  is11 : Bool := false
  encoding : Encoding := .utf8
  deriving Repr

def versionIs11? (value : String) : Option Bool :=
  match value with
  | "1.0" => some false
  | "1.1" => some true
  | _ => none

/-- The declaration with these parts. -/
def Declaration.ofParts? (parts : List (String × String)) : Option Declaration :=
  let isStandalone (v : String) := v == "yes" || v == "no"
  match parts with
  | [("version", v)] => (versionIs11? v).map fun b => { is11 := b }
  | [("version", v), ("encoding", e)] => do
    some ⟨← versionIs11? v, ← Encoding.ofName? e⟩
  | [("version", v), ("standalone", s)] =>
    if isStandalone s then (versionIs11? v).map fun b => { is11 := b } else none
  | [("version", v), ("encoding", e), ("standalone", s)] =>
    if isStandalone s then do some ⟨← versionIs11? v, ← Encoding.ofName? e⟩ else none
  | _ => none

/-- The name of an attribute as it is written. -/
def QualifiedName.text (n : QualifiedName) : String :=
  match n.qualifier with
  | some q => String.ofList (q ++ ':' :: n.base)
  | none => String.ofList n.base

/-- Reads a declaration behind its name. -/
def Declaration.read? (cs : List Char) : Option (Declaration × List Char) := do
  let (attributes, cs) ← readAttributes? {} (cs.length + 1) cs
  let d ← ofParts? (attributes.map fun a => (a.1.text, String.ofList a.2))
  match cs with
  | '?' :: '>' :: rest => some (d, rest)
  | _ => none

/-- The text of a document behind its declaration, if it has one, and the document's version. -/
def readDeclaration? (cs : List Char) : Option (Bool × List Char) :=
  let (hasMark, cs) := match cs with
    | '\uFEFF' :: rest => (true, rest)
    | cs => (false, cs)
  match splitOnce? "<?xml".toList (cs.take 6) with
  | some ([], [c]) =>
    if isSpace c then do
      let (d, rest) ← Declaration.read? (cs.drop 5)
      if hasMark && d.encoding != .utf8 then none
      else some (d.is11, ← d.encoding.reread? rest)
    else some (false, cs)
  | _ => some (false, cs)

/-! ## The document type -/

/-- The text behind a comment, which holds no two hyphens but those of its end. -/
def readComment? (cs : List Char) : Option (List Char × List Char) :=
  match splitOnce? ['-', '-'] cs with
  | some (content, '>' :: rest) => some (content, rest)
  | _ => none

/-- The text behind a markup declaration, whose brackets quotes hide. -/
def skipDeclaration? : (quote : Option Char) → List Char → Option (List Char)
  | _, [] => none
  | none, c :: cs =>
    if c = '>' then some cs
    else skipDeclaration? (if c = '"' ∨ c = '\'' then some c else none) cs
  | some q, c :: cs => skipDeclaration? (if c = q then none else some q) cs

/-- The text of an entity, in which references by number and to other declarations are replaced;
`name` is the reference under way, with the mark before it. -/
def entityText? (d : Declared) : (name : List Char) → List Char → Option (List Char)
  | [], [] => some []
  | _ :: _, [] => none
  | [], c :: cs =>
    if c = '%' ∨ (c = '&' ∧ cs.head? = some '#') then entityText? d [c] cs
    else if !d.allowsChar c then none
    else (entityText? d [] cs).map (c :: ·)
  | mark :: name, c :: cs =>
    if c = ';' then do
      let text ← match mark with
        | '%' => d.entities.lookup ('%' :: name)
        | _ => (d.charOf? name).map ([·])
      (entityText? d [] cs).map (text ++ ·)
    else entityText? d (mark :: name ++ [c]) cs

/-- Adds an entity unless there is one of its name. -/
def Declared.addEntity (d : Declared) (name text : List Char) : Declared :=
  { d with entities := d.entities ++ [(name, text)] }

/-- Reads the declaration of an entity behind its keyword; one that is kept elsewhere has an
empty text. -/
def readEntity? (d : Declared) (cs : List Char) : Option (Declared × List Char) := do
  let cs := cs.dropWhile isSpace
  let (mark, cs) := match cs with
    | '%' :: r => (['%'], r.dropWhile isSpace)
    | cs => ([], cs)
  let name := cs.takeWhile isNameChar
  let cs := cs.dropWhile isNameChar
  if !name.head?.any isNameStart || !cs.head?.any isSpace then none
  else
    match cs.dropWhile isSpace with
    | c :: cs =>
      if c = '"' ∨ c = '\'' then
        match cs.dropWhile (· != c) with
        | _ :: rest => do
          let text ← entityText? d [] (cs.takeWhile (· != c))
          some (d.addEntity (mark ++ name) text, ← skipDeclaration? none rest)
        | [] => none
      else if c = 'S' ∨ c = 'P' then
        (skipDeclaration? none cs).map (d.addEntity (mark ++ name) [], ·)
      else none
    | [] => none

/-- Reads a markup declaration behind its exclamation mark. -/
def readMarkupDeclaration? (d : Declared) (cs : List Char) : Option (Declared × List Char) :=
  let keyword := cs.takeWhile Char.isUpper
  let cs := cs.dropWhile Char.isUpper
  if !cs.head?.any isSpace then none
  else
    match String.ofList keyword with
    | "ENTITY" => readEntity? d cs
    | "ELEMENT" => (skipDeclaration? none cs).map (d, ·)
    | "ATTLIST" => (skipDeclaration? none cs).map (d, ·)
    | "NOTATION" => (skipDeclaration? none cs).map (d, ·)
    | _ => none

/-- Reads a document type behind its keyword and gives the text behind it; `fuel` bounds the
steps, of which a reference to a declaration may make more than the text is long. -/
def readDoctype? : (fuel : Nat) → Declared → List Char → Option (Declared × List Char)
  | 0, _, _ => none
  | fuel + 1, d, cs =>
    match cs with
    | [] => none
    | '>' :: rest => some (d, rest)
    | '<' :: '!' :: '-' :: '-' :: rest =>
      (readComment? rest).bind fun (_, rest) => readDoctype? fuel d rest
    | '<' :: '!' :: rest =>
      (readMarkupDeclaration? d rest).bind fun (d, rest) => readDoctype? fuel d rest
    | '<' :: '?' :: rest =>
      (splitOnce? "?>".toList rest).bind fun (_, rest) => readDoctype? fuel d rest
    | ']' :: ']' :: '>' :: _ => none
    | '%' :: rest =>
      match rest.dropWhile isNameChar with
      | ';' :: behind =>
        (d.entities.lookup ('%' :: rest.takeWhile isNameChar)).bind fun text =>
          readDoctype? fuel d (text ++ behind)
      | _ => none
    | c :: rest =>
      if c = '"' ∨ c = '\'' then readDoctype? fuel d ((rest.dropWhile (· != c)).drop 1)
      else readDoctype? fuel d rest

end Upnp.Xml
