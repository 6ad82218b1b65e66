import Upnp.Yaml.Plain
import Upnp.Yaml.Token

/-
The tree of nodes that a document's tokens describe. Where a node is left out, an empty plain
scalar stands for it.
-/

namespace Upnp.Yaml

/-- The anchor and the tag of a node. -/
structure Properties where
  anchor : Option String := none
  tag : Option String := none
  deriving Repr, DecidableEq

inductive Node where
  | alias (name : String)
  | scalar (props : Properties) (isPlain : Bool) (text : String)
  | sequence (props : Properties) (items : List Node)
  | mapping (props : Properties) (entries : List (Node × Node))
  deriving Repr, Inhabited

namespace Node

def empty : Node := .scalar {} true ""

/-! ## Tags -/

/-- The handles of a document with what they stand for, its own first. -/
abbrev Handles := List (List Char × List Char)

def Handles.standard : Handles :=
  [(['!'], ['!']), (['!', '!'], coreTagStart.toList)]

/-- The whole tag, unless its handle is unknown. -/
def Handles.resolve? (h : Handles) (t : TagName) : Option String :=
  if t.handle.isEmpty then some (String.ofList t.suffix)
  else (h.lookup t.handle).map fun start => String.ofList (start ++ t.suffix)

/-- Reads an anchor and a tag, in either order. -/
def readProperties? (h : Handles) : List Token → Option (Properties × List Token)
  | .anchor a :: .tag t :: ts => (h.resolve? t).map fun tag => (⟨some a, some tag⟩, ts)
  | .tag t :: .anchor a :: ts => (h.resolve? t).map fun tag => (⟨some a, some tag⟩, ts)
  | .anchor a :: ts => some (⟨some a, none⟩, ts)
  | .tag t :: ts => (h.resolve? t).map fun tag => (⟨none, some tag⟩, ts)
  | ts => some ({}, ts)

/-- A scalar, on which an exclamation mark by itself counts as no tag. -/
def ofScalar (props : Properties) (isPlain : Bool) (text : List Char) : Node :=
  let tag := if props.tag = some "!" then none else props.tag
  .scalar { props with tag } isPlain (String.ofList text)

/-! ## Nodes -/

/-- Where a node stands. -/
inductive Setting where
  | flow
  | block
  /-- In a block mapping, where a sequence need not be indented. -/
  | entry
  deriving Repr, DecidableEq

/-- Tokens at which a node has been left out, in each kind of collection. -/
def endsItem (t : Token) : Bool :=
  t matches .dash | .blockEnd

def endsUnindentedItem (t : Token) : Bool :=
  t matches .dash | .key | .value | .blockEnd

def endsKeyOrValue (t : Token) : Bool :=
  t matches .key | .value | .blockEnd

def endsPairKey (t : Token) : Bool :=
  t matches .value | .comma | .flowSequenceEnd

def endsPairValue (t : Token) : Bool :=
  t matches .comma | .flowSequenceEnd

def endsFlowKey (t : Token) : Bool :=
  t matches .value | .comma | .flowMappingEnd

def endsFlowValue (t : Token) : Bool :=
  t matches .comma | .flowMappingEnd

mutual

/-- Reads a node. -/
def read? (h : Handles) : Nat → Setting → List Token → Option (Node × List Token)
  | 0, _, _ => none
  | _, _, .alias name :: ts => some (.alias name, ts)
  | steps + 1, setting, ts => do
    let (props, ts) ← readProperties? h ts
    match ts with
    | .scalar isPlain text :: ts => some (ofScalar props isPlain text, ts)
    | .flowSequence :: ts =>
      (readFlowItems? h steps true ts).map fun (items, ts) => (.sequence props items, ts)
    | .flowMapping :: ts =>
      (readFlowEntries? h steps true ts).map fun (entries, ts) => (.mapping props entries, ts)
    | ts =>
      match setting, ts with
      | .entry, .dash :: _ =>
        (readUnindented? h steps ts).map fun (items, ts) => (.sequence props items, ts)
      | .block, .blockSequence :: ts | .entry, .blockSequence :: ts =>
        (readItems? h steps ts).map fun (items, ts) => (.sequence props items, ts)
      | .block, .blockMapping :: ts | .entry, .blockMapping :: ts =>
        (readEntries? h steps ts).map fun (entries, ts) => (.mapping props entries, ts)
      | _, ts => if props = {} then none else some (.scalar props true "", ts)

/-- Reads a node that may be left out. -/
def readOrEmpty? (h : Handles) (steps : Nat) (isEnd : Token → Bool) (setting : Setting) :
    List Token → Option (Node × List Token)
  | t :: ts => if isEnd t then some (empty, t :: ts) else
    match steps with
    | 0 => none
    | steps + 1 => read? h steps setting (t :: ts)
  | [] => none

/-- Reads the items of a block sequence. -/
def readItems? (h : Handles) : Nat → List Token → Option (List Node × List Token)
  | steps + 1, .dash :: ts => do
    let (item, ts) ← readOrEmpty? h steps endsItem .block ts
    let (items, ts) ← readItems? h steps ts
    some (item :: items, ts)
  | _, .blockEnd :: ts => some ([], ts)
  | _, _ => none

/-- Reads the items of a sequence at the column of the mapping around it. -/
def readUnindented? (h : Handles) : Nat → List Token → Option (List Node × List Token)
  | steps + 1, .dash :: ts => do
    let (item, ts) ← readOrEmpty? h steps endsUnindentedItem .block ts
    let (items, ts) ← readUnindented? h steps ts
    some (item :: items, ts)
  | 0, .dash :: _ => none
  | _, ts => some ([], ts)

/-- Reads the entries of a block mapping. -/
def readEntries? (h : Handles) : Nat → List Token → Option (List (Node × Node) × List Token)
  | steps + 1, .key :: ts => do
    let (key, ts) ← readOrEmpty? h steps endsKeyOrValue .entry ts
    let (value, ts) ← readValue? h steps endsKeyOrValue .entry ts
    let (entries, ts) ← readEntries? h steps ts
    some ((key, value) :: entries, ts)
  | _, .blockEnd :: ts => some ([], ts)
  | _, _ => none

/-- Reads the value behind a key, which may be left out together with its colon. -/
def readValue? (h : Handles) (steps : Nat) (isEnd : Token → Bool) (setting : Setting) :
    List Token → Option (Node × List Token)
  | .value :: ts =>
    match steps with
    | 0 => none
    | steps + 1 => readOrEmpty? h steps isEnd setting ts
  | ts => some (empty, ts)

/-- Reads the items of a flow sequence, the first or those behind an item. -/
def readFlowItems? (h : Handles) : Nat → Bool → List Token → Option (List Node × List Token)
  | _, _, .flowSequenceEnd :: ts => some ([], ts)
  | 0, _, _ => none
  | _, false, .comma :: .flowSequenceEnd :: ts => some ([], ts)
  | steps + 1, isFirst, ts => do
    let ts ← match isFirst, ts with
      | true, ts | false, .comma :: ts => some ts
      | _, _ => none
    let (item, ts) ← match ts with
      | .key :: ts => readPair? h steps ts
      | ts => read? h steps .flow ts
    let (items, ts) ← readFlowItems? h steps false ts
    some (item :: items, ts)

/-- Reads a mapping of one entry that stands in a flow sequence without brackets; where its key is
left out, the token in its place is taken with it. -/
def readPair? (h : Handles) (steps : Nat) (ts : List Token) : Option (Node × List Token) :=
  match steps with
  | 0 => none
  | steps + 1 => do
    let (key, ts) ← match ts with
      | t :: rest => if endsPairKey t then some (empty, rest) else read? h steps .flow ts
      | [] => none
    let (value, ts) ← readValue? h steps endsPairValue .flow ts
    some (.mapping {} [(key, value)], ts)

/-- Reads the entries of a flow mapping, the first or those behind an entry. -/
def readFlowEntries? (h : Handles) :
    Nat → Bool → List Token → Option (List (Node × Node) × List Token)
  | _, _, .flowMappingEnd :: ts => some ([], ts)
  | 0, _, _ => none
  | _, false, .comma :: .flowMappingEnd :: ts => some ([], ts)
  | steps + 1, isFirst, ts => do
    let ts ← match isFirst, ts with
      | true, ts | false, .comma :: ts => some ts
      | _, _ => none
    let (key, value, ts) ← match ts with
      | .key :: ts => do
        let (key, ts) ← readOrEmpty? h steps endsFlowKey .flow ts
        let (value, ts) ← readValue? h steps endsFlowValue .flow ts
        some (key, value, ts)
      | ts => do
        let (key, ts) ← read? h steps .flow ts
        some (key, empty, ts)
    let (entries, ts) ← readFlowEntries? h steps false ts
    some ((key, value) :: entries, ts)

end

/-! ## Documents -/

/-- Reads the directives of a document; a version is 1.1 or 1.2, and nothing is said twice. -/
def readDirectives? (version : Bool) (own : Handles) : List Token → Option (Handles × List Token)
  | .directive (.version major minor) :: ts =>
    if version || major != 1 || (minor != 1 && minor != 2) then none
    else readDirectives? true own ts
  | .directive (.handle name start) :: ts =>
    if (own.lookup name).isSome then none else readDirectives? version ((name, start) :: own) ts
  | ts => some (own, ts)

/-- The root of the only document that the tokens describe; it is empty if there is none. -/
def ofTokens? (ts : List Token) : Option Node := do
  let steps := 4 * ts.length + 4
  let (own, rest) ← readDirectives? false [] ts
  let (root, rest) ← match rest with
    | .documentStart :: .documentEnd :: rest => some (empty, rest)
    | [.documentStart] => some (empty, [])
    | .documentStart :: rest => read? (own ++ Handles.standard) steps .block rest
    | rest =>
      if ts.isEmpty then some (empty, [])
      else if rest.length < ts.length then none
      else read? Handles.standard steps .block rest
  if rest.all (· == .documentEnd) then some root else none

end Node

end Upnp.Yaml
