import Upnp.Decimal.Real

/-
The values that YAML documents hold. A mapping keeps its entries in the order of their first
insertion and has each key once; any value can be a key.
-/

namespace Upnp.Yaml

open Upnp.Decimal

/-- Whole numbers are kept apart from real ones, so that `1` and `1.0` differ. -/
inductive Number where
  | int (n : Int)
  | real (x : Binary64)
  deriving Repr, DecidableEq

namespace Number

def text : Number → String
  | .int n => showInt n
  | .real x => RealFormat.compact.write x

/-- Equality as keys: zero has no sign and there is one value that is no number. -/
def same : Number → Number → Bool
  | .int a, .int b => a == b
  | .real x, .real y =>
    x == y || (x.isNaN && y.isNaN) || (x.magnitude == 0 && y.magnitude == 0)
  | _, _ => false

/-- The whole number, if it is a natural number of 64 bits. -/
def natural? : Number → Option Nat
  | .int n => if IntRange.unsigned64.contains n then some n.toNat else none
  | .real _ => none

end Number

inductive Value where
  | null
  | bool (b : Bool)
  | number (n : Number)
  | string (s : String)
  | sequence (items : List Value)
  | mapping (entries : List (Value × Value))
  /-- A value with a tag of the document's own, which is named without its exclamation mark. -/
  | tagged (name : String) (value : Value)
  deriving Repr, Inhabited

abbrev Entries := List (Value × Value)

/-! ## Equality of keys -/

mutual

/-- Equality as keys: the order of a mapping's entries does not count. -/
def Value.same : Value → Value → Bool
  | .null, .null => true
  | .bool a, .bool b => a == b
  | .number a, .number b => a.same b
  | .string a, .string b => a == b
  | .sequence xs, .sequence ys => sameItems xs ys
  | .mapping xs, .mapping ys => xs.length == ys.length && sameEntries xs ys
  | .tagged a x, .tagged b y => a == b && x.same y
  | _, _ => false

def sameItems : List Value → List Value → Bool
  | [], [] => true
  | x :: xs, y :: ys => x.same y && sameItems xs ys
  | _, _ => false

def sameEntries : Entries → Entries → Bool
  | [], _ => true
  | e :: es, ys => ys.any (sameEntry e) && sameEntries es ys

def sameEntry : Value × Value → Value × Value → Bool
  | (key, value), other => key.same other.1 && value.same other.2

end

/-- Only a string is the same key as a string. -/
theorem Value.same_string {v : Value} {s : String} : v.same (.string s) = true ↔ v = .string s := by
  cases v <;> simp [Value.same]

/-! ## Entries of a mapping -/

namespace Entries

def find? (key : Value) : Entries → Option Value
  | [] => none
  | (k, v) :: es => if k.same key then some v else find? key es

/-- Sets the value of a key, in its place if the key is there and at the end if not. -/
def put (key value : Value) : Entries → Entries
  | [] => [(key, value)]
  | (k, v) :: es => if k.same key then (k, value) :: es else (k, v) :: put key value es

/-- The entries put one by one, so that the last value of a key counts. -/
def ofList (es : List (Value × Value)) : Entries :=
  es.foldl (fun done e => put e.1 e.2 done) []

theorem find?_put_self (s : String) (v : Value) (es : Entries) :
    find? (.string s) (put (.string s) v es) = some v := by
  induction es with
  | nil => simp [put, find?, Value.same]
  | cons e es ih =>
    obtain ⟨k, w⟩ := e
    by_cases h : k.same (.string s) <;> simp [put, find?, h, ih]

theorem find?_put_of_ne {s t : String} (h : s ≠ t) (v : Value) (es : Entries) :
    find? (.string t) (put (.string s) v es) = find? (.string t) es := by
  induction es with
  | nil => simp [put, find?, Value.same, h]
  | cons e es ih =>
    obtain ⟨k, w⟩ := e
    by_cases hk : k.same (.string s)
    · obtain rfl := Value.same_string.1 hk
      simp [put, find?, Value.same, h]
    · simp [put, find?, hk, ih]

end Entries

end Upnp.Yaml
