import Upnp.Text.LowerCase
import Upnp.Yaml.Value

/-
Trees of settings. A path of keys leads from the root through mappings to a value; keys are
compared in lower case, which a tree must have its own keys in. One tree is laid over another by
merging the mappings that both have and replacing everything else.
-/

namespace Upnp.Config

open Upnp.Text Upnp.Yaml

/-- Why a tree has no value at a path or takes none there. -/
inductive TreeError where
  /-- What stands at the path is no mapping. -/
  | noMapping (path : List String)
  | missing (path : List String)
  /-- What stands before the end of the path to set is no mapping. -/
  | closed
  deriving Repr, DecidableEq

def TreeError.message : TreeError → String
  | .noMapping path => "Path " ++ ".".intercalate path ++ " is not a Config"
  | .missing path => "Path " ++ ".".intercalate path ++ " does not exist"
  | .closed => "Current node is not a map"

/-- The key that a text means. -/
def keyOf (k : String) : Value :=
  .string (toLower k)

/-! ## Lower case -/

def lowerKey : Value → Value
  | .string s => keyOf s
  | k => k

mutual

/-- The tree with its keys in lower case; of keys that thereby become one the last counts. -/
def lowerKeys : Value → Value
  | .sequence items => .sequence (lowerItems items)
  | .mapping entries => .mapping (Entries.ofList (lowerEntries entries))
  | v => v

def lowerItems : List Value → List Value
  | [] => []
  | v :: vs => lowerKeys v :: lowerItems vs

def lowerEntries : Entries → Entries
  | [] => []
  | e :: es => lowerEntry e :: lowerEntries es

def lowerEntry : Value × Value → Value × Value
  | (k, v) => (lowerKey k, lowerKeys v)

end

/-! ## Merging -/

mutual

/-- The first tree with the second laid over it. -/
def merge (base : Value) : Value → Value
  | .mapping entries =>
    match base with
    | .mapping own => .mapping (mergeEntries own entries)
    | _ => .mapping entries
  | v => v

def mergeEntries (own : Entries) : Entries → Entries
  | [] => own
  | e :: es => mergeEntries (mergeEntry own e) es

def mergeEntry (own : Entries) : Value × Value → Entries
  | (k, v) =>
    match Entries.find? k own with
    | some d => Entries.put k (merge d v) own
    | none => own ++ [(k, v)]

end

/-! ## Paths -/

/-- The value at a path whose keys `passed` already lead to the tree. -/
def getFrom (passed : List String) : List String → Value → Except TreeError Value
  | [], v => .ok v
  | k :: ks, .mapping entries =>
    match Entries.find? (keyOf k) entries with
    | some v => getFrom (passed ++ [k]) ks v
    | none => .error (.missing (passed ++ [k]))
  | _ :: _, _ => .error (.noMapping passed)

/-- The value at a path. -/
def get (path : List String) (v : Value) : Except TreeError Value :=
  getFrom [] path v

/-- The tree with a value set at a path; mappings that are missing on the way are made. -/
def set (value : Value) : List String → Value → Except TreeError Value
  | [], _ => .ok value
  | k :: ks, .mapping entries => do
    let child ← set value ks ((Entries.find? (keyOf k) entries).getD (.mapping []))
    .ok (.mapping (Entries.put (keyOf k) child entries))
  | _ :: _, _ => .error .closed

end Upnp.Config
