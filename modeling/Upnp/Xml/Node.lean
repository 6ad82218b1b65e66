import Upnp.Text.Blank
import Upnp.Xml.Char

/-
XML trees. Names are kept without prefixes when a tree is read; what is asked of a tree are the
texts, children and attributes of its elements.
-/

namespace Upnp.Xml

/-- A part of a document. -/
inductive Node where
  | element (name : String) (attributes : List (String × String)) (children : List Node)
  | text (content : String)
  | cdata (content : String)
  | comment (content : String)
  | instruction (target content : String)
  deriving Repr

/-- An element of a document. -/
structure Element where
  name : String
  attributes : List (String × String) := []
  children : List Node := []
  deriving Repr

def Element.toNode (e : Element) : Node :=
  .element e.name e.attributes e.children

/-- The node as an element, if it is one. -/
def Node.toElement? : Node → Option Element
  | .element name attributes children => some ⟨name, attributes, children⟩
  | _ => none

/-- The text that a node holds by itself. -/
def Node.ownText? : Node → Option String
  | .text content => some content
  | .cdata content => some content
  | _ => none

namespace Element

/-! ## Reading a tree -/

/-- The text directly inside an element, if there is any. -/
def text? (e : Element) : Option String :=
  match e.children.filterMap Node.ownText? with
  | [] => none
  | parts => some (String.join parts)

/-- The child elements of a name. -/
def childrenNamed (e : Element) (name : String) : List Element :=
  (e.children.filterMap Node.toElement?).filter (·.name == name)

/-- The first child element of a name. -/
def child? (e : Element) (name : String) : Option Element :=
  (e.childrenNamed name).head?

/-- The trimmed text of the first child of a name, empty if there is none. -/
def childText (e : Element) (name : String) : String :=
  (((e.child? name).bind text?).map Text.trim).getD ""

/-- The elements of one name inside the first child of another. -/
def listed (e : Element) (list item : String) : List Element :=
  ((e.child? list).map (·.childrenNamed item)).getD []

def attribute? (e : Element) (name : String) : Option String :=
  e.attributes.lookup name

theorem sizeOf_lt_of_mem_childrenNamed {e x : Element} {name : String}
    (h : x ∈ e.childrenNamed name) : sizeOf x < sizeOf e := by
  simp only [childrenNamed, List.mem_filter, List.mem_filterMap] at h
  obtain ⟨⟨n, hn, hx⟩, _⟩ := h
  cases n <;> simp only [Node.toElement?, Option.some.injEq, reduceCtorEq] at hx
  subst hx
  have := List.sizeOf_lt_of_mem hn
  cases e
  simp at this ⊢
  omega

theorem sizeOf_lt_of_mem_listed {e x : Element} {list item : String}
    (h : x ∈ e.listed list item) : sizeOf x < sizeOf e := by
  unfold listed child? at h
  cases hc : (e.childrenNamed list).head? with
  | none => simp [hc] at h
  | some c =>
    simp only [hc, Option.map_some, Option.getD_some] at h
    exact Nat.lt_trans (sizeOf_lt_of_mem_childrenNamed h)
      (sizeOf_lt_of_mem_childrenNamed (List.mem_of_mem_head? hc))

/-! ## Building a tree -/

/-- An element that holds a text; an empty text leaves it empty. -/
def ofText (name content : String) : Element :=
  { name, children := if content = "" then [] else [.text content] }

/-- An element that holds elements. -/
def ofElements (name : String) (children : List Element) : Element :=
  { name, children := children.map toNode }

/-- An element that holds elements, or nothing if there are none. -/
def listOf (name : String) (children : List Element) : List Element :=
  if children.isEmpty then [] else [ofElements name children]

/-- An element that holds a text, or nothing if the text is empty. -/
def optionalText (name content : String) : List Element :=
  if content = "" then [] else [ofText name content]

end Element

end Upnp.Xml
