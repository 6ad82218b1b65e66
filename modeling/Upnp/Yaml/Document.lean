import Upnp.Yaml.Node

/-
The value of a document. An alias stands for the value of the node that had its anchor last, which
must be complete. How deep values are nested and how often aliases are followed is limited, so
that a small document cannot stand for a huge value.
-/

namespace Upnp.Yaml

/-- Collections may be nested to this depth. -/
def maxDepth : Nat := 128

/-- Aliases may be followed this many times for each event of a document. -/
def maxJumpsPerEvent : Nat := 100

/-- A value with the depth of its collections and the number of aliases followed for it. -/
structure Expansion where
  value : Value
  depth : Nat := 0
  jumps : Nat := 0

/-- The anchors met so far with their values, as far as these are complete. -/
abbrev Anchors := Array (String × Option Expansion)

namespace Anchors

/-- Notes that a node with an anchor begins. -/
def enter (props : Properties) (known : Anchors) : Anchors :=
  match props.anchor with
  | some name => known.push (name, none)
  | none => known

/-- Notes the value of a node that began when so many anchors had been met. -/
def complete (props : Properties) (position : Nat) (e : Expansion) (known : Anchors) : Anchors :=
  match props.anchor with
  | some name => known.setIfInBounds position (name, some e)
  | none => known

def find? (name : String) (known : Anchors) : Option Expansion :=
  (known.toList.reverse.lookup name).join

end Anchors

/-- The collection around expansions, with its tag. -/
def Expansion.collect? (maxJumps : Nat) (tag : Option String) (parts : List Expansion)
    (value : Value) : Option Expansion := do
  let depth := (parts.map (·.depth)).foldl max 0 + 1
  let jumps := (parts.map (·.jumps)).foldl (· + ·) 0
  let value ← match tag.bind ownTag? with
    | some "" => none
    | some name => some (.tagged name value)
    | none => some value
  if depth ≤ maxDepth ∧ jumps ≤ maxJumps then some ⟨value, depth, jumps⟩ else none

/-- The entries of a mapping, unless a key is there twice. -/
def distinctEntries? : Entries → Option Entries
  | es => es.foldlM (fun done (k, v) =>
      if (Entries.find? k done).isSome then none else some (Entries.put k v done)) []

mutual

/-- The value of a node behind the anchors met before it. -/
def Node.expand? (maxJumps : Nat) (known : Anchors) : Node → Option (Expansion × Anchors)
  | .alias name => do
    let e ← known.find? name
    some ({ e with jumps := e.jumps + 1 }, known)
  | .scalar props isPlain text => do
    let value ← scalarValue? props.tag isPlain text
    some (⟨value, 0, 0⟩, (known.enter props).complete props known.size ⟨value, 0, 0⟩)
  | .sequence props items => do
    let (parts, after) ← expandItems? maxJumps (known.enter props) items
    let e ← Expansion.collect? maxJumps props.tag parts (.sequence (parts.map (·.value)))
    some (e, after.complete props known.size e)
  | .mapping props entries => do
    let (parts, after) ← expandEntries? maxJumps (known.enter props) entries
    let es ← distinctEntries? (parts.map fun (k, v) => (k.value, v.value))
    let e ← Expansion.collect? maxJumps props.tag (parts.flatMap fun (k, v) => [k, v]) (.mapping es)
    some (e, after.complete props known.size e)

def expandItems? (maxJumps : Nat) (known : Anchors) :
    List Node → Option (List Expansion × Anchors)
  | [] => some ([], known)
  | n :: ns => do
    let (e, known) ← n.expand? maxJumps known
    let (es, known) ← expandItems? maxJumps known ns
    some (e :: es, known)

def expandEntries? (maxJumps : Nat) (known : Anchors) :
    List (Node × Node) → Option (List (Expansion × Expansion) × Anchors)
  | [] => some ([], known)
  | n :: ns => do
    let (e, known) ← expandEntry? maxJumps known n
    let (es, known) ← expandEntries? maxJumps known ns
    some (e :: es, known)

def expandEntry? (maxJumps : Nat) (known : Anchors) :
    Node × Node → Option ((Expansion × Expansion) × Anchors)
  | (key, value) => do
    let (k, known) ← key.expand? maxJumps known
    let (v, known) ← value.expand? maxJumps known
    some ((k, v), known)

end

mutual

/-- The events of a node: one for a scalar or an alias, two for a collection and those in it. -/
def Node.events : Node → Nat
  | .alias _ | .scalar _ _ _ => 1
  | .sequence _ items => 2 + itemEvents items
  | .mapping _ entries => 2 + entryEvents entries

def itemEvents : List Node → Nat
  | [] => 0
  | n :: ns => n.events + itemEvents ns

def entryEvents : List (Node × Node) → Nat
  | [] => 0
  | n :: ns => pairEvents n + entryEvents ns

def pairEvents : Node × Node → Nat
  | (key, value) => key.events + value.events

end

/-- The value of a root node. -/
def Node.value? (n : Node) : Option Value := do
  let maxJumps := maxJumpsPerEvent * n.events
  let (e, _) ← n.expand? maxJumps #[]
  if e.jumps ≤ maxJumps then some e.value else none

/-- The value of the only document in a text. -/
def read? (s : String) : Option Value := do
  let tokens ← tokens? (← places? s.toList)
  (← Node.ofTokens? tokens).value?

end Upnp.Yaml
