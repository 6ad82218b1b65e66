import Upnp.Markup.Token

/-
The attributes of a tag, read one by one from the text behind the tag's name. Values stand in
quotes; a name that was there before makes the attributes malformed from that point on.
-/

namespace Upnp.Markup

open Upnp.Xml

/-- An attribute, its value still as it is written. -/
structure Attribute where
  name : List Char
  value : List Char
  deriving Repr, DecidableEq

/-- The attributes are malformed. -/
inductive AttributeError where
  | malformed
  deriving Repr, DecidableEq

/-- Reads an equals sign and a quoted value with blanks before each. -/
def readValue? (cs : List Char) : Option (List Char × List Char) :=
  match cs.dropWhile isSpace with
  | '=' :: r =>
    match r.dropWhile isSpace with
    | q :: r =>
      if q = '"' ∨ q = '\'' then
        match r.dropWhile (· != q) with
        | _ :: rest => some (r.takeWhile (· != q), rest)
        | [] => none
      else none
    | [] => none
  | _ => none

/-- The attributes of a tag in order, up to the first that is malformed; `seen` holds the names
passed, and `fuel` bounds their number. -/
def readAttributes (fuel : Nat) (seen : List (List Char)) (cs : List Char) :
    List (Except AttributeError Attribute) :=
  match fuel, cs.dropWhile isSpace with
  | _, [] => []
  | 0, _ => []
  | fuel + 1, c :: r =>
    let endsName (c : Char) := c == '=' || isSpace c
    let name := c :: r.takeWhile (!endsName ·)
    match readValue? (r.dropWhile (!endsName ·)) with
    | none => [.error .malformed]
    | some (value, rest) =>
      if seen.contains name then [.error .malformed]
      else .ok ⟨name, value⟩ :: readAttributes fuel (name :: seen) rest

def attributesOf (cs : List Char) : List (Except AttributeError Attribute) :=
  readAttributes cs.length [] cs

/-- The text that a written value stands for: references by number and by predefined name are
replaced, any other makes it malformed; `fuel` bounds the number of references. -/
def unescape? : (fuel : Nat) → List Char → Option (List Char)
  | _, [] => some []
  | 0, _ => none
  | fuel + 1, cs =>
    let plain := cs.takeWhile (· != '&')
    match cs.dropWhile (· != '&') with
    | [] => some plain
    | _ :: r =>
      let isEnd (c : Char) := c == ';' || c == '&'
      let name := r.takeWhile (!isEnd ·)
      match r.dropWhile (!isEnd ·) with
      | ';' :: rest => do
        let c ← match name with
          | '#' :: number => charOfNumber? number
          | name => predefined? name
        let more ← unescape? fuel rest
        some (plain ++ c :: more)
      | _ => none

def Attribute.text? (a : Attribute) : Option String :=
  (unescape? (a.value.length + 1) a.value).map String.ofList

/-- Whether the attribute declares a namespace. -/
def Attribute.isNamespace (a : Attribute) : Bool :=
  a.name == "xmlns".toList || "xmlns:".toList.isPrefixOf a.name

/-- The first namespace declared; the attributes up to it must be well formed. -/
def firstNamespace : List (Except AttributeError Attribute) → Except AttributeError (Option String)
  | [] => .ok none
  | .error e :: _ => .error e
  | .ok a :: rest =>
    if a.isNamespace then
      match a.text? with
      | some text => .ok (some text)
      | none => .error .malformed
    else firstNamespace rest

/-- The first namespace that a tag declares. -/
def namespaceOf (attributes : List Char) : Except AttributeError (Option String) :=
  firstNamespace (attributesOf attributes)

end Upnp.Markup
