import Upnp.Text.Blank
import Upnp.Text.Split
import Upnp.Xml.Char

/-
The tokens of XML markup, read without regard to document structure: text may stand anywhere, and
nothing has to be complete behind the last token asked for. Each token comes with its source text,
so that a passage of the input can be given back verbatim. The only structure that is checked is
that closing tags match the opening ones.
-/

namespace Upnp.Markup

open Upnp.Text Upnp.Xml

inductive Token where
  | opening (name attributes : List Char)
  | empty (name attributes : List Char)
  | closing (name : List Char)
  | text (content : List Char)
  /-- A reference by name or, behind a number sign, by number. -/
  | reference (name : List Char)
  | cdata (content : List Char)
  /-- A comment, an instruction or a declaration. -/
  | aside
  | malformed
  deriving Repr, DecidableEq

/-- A token and the text it was read from. -/
structure Lexeme where
  token : Token
  source : List Char
  deriving Repr, DecidableEq

/-! ## Tags -/

/-- The content of a tag up to its closing bracket, which quotes hide, and the text behind it. -/
def spanTag : (quote : Option Char) → List Char → Option (List Char × List Char)
  | _, [] => none
  | none, c :: cs =>
    if c = '>' then some ([], cs)
    else
      let quote := if c = '"' ∨ c = '\'' then some c else none
      (spanTag quote cs).map fun (content, rest) => (c :: content, rest)
  | some q, c :: cs =>
    (spanTag (if c = q then none else some q) cs).map fun (content, rest) => (c :: content, rest)

/-- The name at the front of a tag and its attributes. -/
def splitName (content : List Char) : List Char × List Char :=
  (content.takeWhile (!isSpace ·), content.dropWhile (!isSpace ·))

/-- The token of a tag that does not start with a mark. -/
def tagToken (content : List Char) : Token :=
  if content.getLast? = some '/' then
    let (name, attributes) := splitName content.dropLast
    .empty name attributes
  else
    let (name, attributes) := splitName content
    .opening name attributes

/-- The token of a tag behind its slash: blanks behind a name do not count. -/
def closingToken (content : List Char) : Token :=
  .closing (if content.all isSpace then content else dropTrailing isSpace content)

/-! ## Declarations -/

/-- The content of a document type declaration, in which brackets nest, and the text behind it. -/
def spanDoctype : (depth : Nat) → List Char → Option (List Char × List Char)
  | _, [] => none
  | depth, c :: cs =>
    if c = '>' ∧ depth = 0 then some ([], cs)
    else
      let depth := if c = '<' then depth + 1 else if c = '>' then depth - 1 else depth
      (spanDoctype depth cs).map fun (content, rest) => (c :: content, rest)

/-- Whether a text starts with a word in any letter case. -/
def startsWithWord (word : String) (cs : List Char) : Bool :=
  (cs.take word.length).map Char.toLower == word.toList

/-- The token behind an opening bracket and an exclamation mark, and the text behind it. -/
def readDeclaration? (cs : List Char) : Option (Token × List Char) :=
  match cs with
  | '-' :: '-' :: r => (splitOnce? "-->".toList r).map fun (_, rest) => (.aside, rest)
  | '[' :: _ =>
    if startsWithWord "[cdata[" cs then
      (splitOnce? "]]>".toList (cs.drop 7)).map fun (content, rest) => (.cdata content, rest)
    else none
  | _ =>
    if startsWithWord "doctype" cs then
      (spanDoctype 0 (cs.drop 7)).bind fun (content, rest) =>
        if content.all isSpace then none else some (.aside, rest)
    else none

/-- The token behind an opening bracket and the text behind it. -/
def readMarkup? (cs : List Char) : Option (Token × List Char) :=
  match cs with
  | '!' :: r => readDeclaration? r
  | '?' :: _ =>
    match splitOnce? "?>".toList cs with
    | some ([], _) => none
    | some (_, rest) => some (.aside, rest)
    | none => none
  | '/' :: r => (spanTag none r).map fun (content, rest) => (closingToken content, rest)
  | _ => (spanTag none cs).map fun (content, rest) => (tagToken content, rest)

/-- The reference behind an ampersand and the text behind its semicolon. -/
def readReference? (cs : List Char) : Option (Token × List Char) :=
  let isEnd (c : Char) := c == ';' || c == '&' || c == '<'
  match cs.dropWhile (!isEnd ·) with
  | ';' :: rest => some (.reference (cs.takeWhile (!isEnd ·)), rest)
  | _ => none

def isTextChar (c : Char) : Bool :=
  c != '<' && c != '&'

/-- The first token of a text that is not empty, and the text behind it. -/
def readToken? (cs : List Char) : Option (Token × List Char) :=
  match cs with
  | '<' :: r => readMarkup? r
  | '&' :: r => readReference? r
  | _ => some (.text (cs.takeWhile isTextChar), cs.dropWhile isTextChar)

/-! ## Lexemes -/

/-- The lexemes of a text up to the first that is malformed; `fuel` bounds their number. -/
def scan : (fuel : Nat) → List Char → List Lexeme
  | _, [] => []
  | 0, cs => [⟨.malformed, cs⟩]
  | fuel + 1, cs =>
    match readToken? cs with
    | some (token, rest) => ⟨token, cs.take (cs.length - rest.length)⟩ :: scan fuel rest
    | none => [⟨.malformed, cs⟩]

/-- Cuts the lexemes off at the first closing tag that does not match; `names` are open. -/
def checkNesting : (names : List (List Char)) → List Lexeme → List Lexeme
  | _, [] => []
  | names, x :: xs =>
    match x.token, names with
    | .opening name _, _ => x :: checkNesting (name :: names) xs
    | .closing name, open_ :: outer =>
      if name = open_ then x :: checkNesting outer xs else [⟨.malformed, x.source⟩]
    | .closing _, [] => [⟨.malformed, x.source⟩]
    | _, _ => x :: checkNesting names xs

/-- The byte order mark. -/
def byteOrderMark : Char := '\uFEFF'

/-- The text without a byte order mark at its front. -/
def withoutMark : List Char → List Char
  | c :: cs => if c = byteOrderMark then cs else c :: cs
  | [] => []

/-- The lexemes of a text, the last of which is malformed if the text is. -/
def lexemes (cs : List Char) : List Lexeme :=
  checkNesting [] (scan cs.length (withoutMark cs))

/-- A name without what stands before its first colon. -/
def localName (name : List Char) : List Char :=
  match splitOnce? [':'] name with
  | some (_, rest) => rest
  | none => name

/-- The source of the element content in front of the closing tag that ends it, elements of the
same name nesting. -/
def innerSource? (name : List Char) : (depth : Nat) → List Lexeme → Option (List Char)
  | _, [] => none
  | depth, x :: xs =>
    let more (depth : Nat) := (innerSource? name depth xs).map (x.source ++ ·)
    match x.token with
    | .malformed => none
    | .opening n _ => more (if n = name then depth + 1 else depth)
    | .closing n =>
      if n = name then
        match depth with
        | 0 => some []
        | depth + 1 => more depth
      else more depth
    | _ => more depth

end Upnp.Markup
