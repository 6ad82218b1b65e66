import Upnp.Xml.Node

/-
Writing XML. Elements inside elements stand on lines of their own, two blanks deeper; an element
that holds text is written on one line, and one that holds nothing as a single tag.
-/

namespace Upnp.Xml

/-! ## Escapes -/

/-- How a character of text is written. -/
def escapeTextChar (c : Char) : List Char :=
  match c with
  | '<' => "&lt;".toList
  | '>' => "&gt;".toList
  | '&' => "&amp;".toList
  | c => [c]

/-- How a character of an attribute value is written. -/
def escapeValueChar (c : Char) : List Char :=
  match c with
  | '"' => "&quot;".toList
  | '\'' => "&apos;".toList
  | '\n' => "&#xA;".toList
  | '\r' => "&#xD;".toList
  | c => escapeTextChar c

def escapeText (cs : List Char) : List Char :=
  cs.flatMap escapeTextChar

def escapeValue (cs : List Char) : List Char :=
  cs.flatMap escapeValueChar

/-! ## Trees -/

def writeAttribute (name value : String) : List Char :=
  ' ' :: name.toList ++ "=\"".toList ++ escapeValue value.toList ++ ['"']

def writeAttributes (attributes : List (String × String)) : List Char :=
  attributes.flatMap fun (name, value) => writeAttribute name value

/-- A new line at a depth. -/
def newLine (depth : Nat) : List Char :=
  '\n' :: List.replicate (2 * depth) ' '

/-- Whether an element's children are written on its own line. -/
def isInline (children : List Node) : Bool :=
  children.any fun n => n.ownText?.isSome

mutual

/-- The text of a node at a depth. -/
def Node.write (depth : Nat) : Node → List Char
  | .element name attributes children =>
    let tag := '<' :: name.toList ++ writeAttributes attributes
    if children.isEmpty then tag ++ " />".toList
    else
      let inline_ := isInline children
      let end_ := if inline_ then [] else newLine depth
      tag ++ '>' :: Node.writeAll (depth + 1) inline_ children ++ end_ ++
        "</".toList ++ name.toList ++ ['>']
  | .text content => escapeText content.toList
  | .cdata content => "<![CDATA[".toList ++ content.toList ++ "]]>".toList
  | .comment content => "<!--".toList ++ content.toList ++ "-->".toList
  | .instruction target content =>
    "<?".toList ++ target.toList ++ ' ' :: content.toList ++ "?>".toList

/-- The texts of the children of an element, each on a line of its own unless written inline. -/
def Node.writeAll (depth : Nat) (inline_ : Bool) : List Node → List Char
  | [] => []
  | n :: ns =>
    (if inline_ then [] else newLine depth) ++ n.write depth ++ Node.writeAll depth inline_ ns

end

/-- The line that a document starts with. -/
def declaration : String :=
  "<?xml version=\"1.0\" encoding=\"UTF-8\"?>"

/-- The text of a document. -/
def writeChars (root : Element) : List Char :=
  declaration.toList ++ newLine 0 ++ root.toNode.write 0

def write (root : Element) : String :=
  String.ofList (writeChars root)

end Upnp.Xml
