/-
Punycode: texts of any characters as letters, digits and hyphens. The characters outside ASCII are
inserted one by one in ascending order; what is written are the distances between insertions, in a
variable-length notation whose digit thresholds adapt.
-/

namespace Upnp.Url.Punycode

def digitChar (d : Nat) : Char :=
  if d < 26 then Char.ofNat (97 + d) else Char.ofNat (22 + d)

def digitValue? (c : Char) : Option Nat :=
  let n := c.toNat
  if 97 ≤ n ∧ n ≤ 122 then some (n - 97)
  else if 65 ≤ n ∧ n ≤ 90 then some (n - 65)
  else if 48 ≤ n ∧ n ≤ 57 then some (n - 22)
  else none

/-- The threshold of the digit at position `k` (a multiple of 36). -/
def threshold (k bias : Nat) : Nat :=
  if k ≤ bias then 1 else min 26 (k - bias)

/-- Divides by 35 until at most 455 is left, counting in steps of 36. -/
def shrink (delta steps : Nat) : Nat × Nat :=
  if 455 < delta then shrink (delta / 35) (steps + 36) else (delta, steps)
termination_by delta
decreasing_by omega

/-- The bias after an insertion at distance `delta` into `count` characters. -/
def adapt (delta count : Nat) (first : Bool) : Nat :=
  let d := if first then delta / 700 else delta / 2
  let (rest, steps) := shrink (d + d / count) 0
  steps + 36 * rest / (rest + 38)

/-! ## Encoding -/

theorem threshold_bounds (k bias : Nat) : 1 ≤ threshold k bias ∧ threshold k bias ≤ 26 := by
  unfold threshold
  split <;> omega

/-- A distance as digits, from the one at position `k` on. -/
def writeDistance (bias k delta : Nat) : List Char :=
  let t := threshold k bias
  if delta < t then [digitChar delta]
  else
    digitChar (t + (delta - t) % (36 - t)) ::
      writeDistance bias (k + 36) ((delta - t) / (36 - t))
termination_by delta
decreasing_by
  have hle := Nat.div_le_self (delta - threshold k bias) (36 - threshold k bias)
  have hpos := (threshold_bounds k bias).1
  omega

/-- Where an encoder or a decoder stands. -/
structure State where
  delta : Nat
  bias : Nat
  handled : Nat
  first : Bool

/-- Passes over the text once for the code point `n` and writes its insertions. -/
def insertAll (n : Nat) : State → List Char → State × List Char
  | s, [] => (s, [])
  | s, c :: cs =>
    if c.toNat < n then insertAll n { s with delta := s.delta + 1 } cs
    else if c.toNat = n then
      let digits := writeDistance s.bias 36 s.delta
      let next := ⟨0, adapt s.delta (s.handled + 1) s.first, s.handled + 1, false⟩
      let (s, out) := insertAll n next cs
      (s, digits ++ out)
    else insertAll n s cs

/-- Handles code points in ascending order, those below `n` being done. -/
def encodeFrom (text : List Char) : List Nat → (n : Nat) → State → List Char
  | [], _, _ => []
  | m :: ms, n, s =>
    let start := { s with delta := s.delta + (m - n) * (s.handled + 1) }
    let (s, out) := insertAll m start text
    out ++ encodeFrom text ms (m + 1) { s with delta := s.delta + 1 }

/-- The punycode form of a text. -/
def encode (text : List Char) : List Char :=
  let basic := text.filter (·.toNat < 128)
  let others := ((text.filter (128 ≤ ·.toNat)).map Char.toNat).mergeSort.eraseDups
  let lead := if basic.isEmpty then [] else basic ++ ['-']
  lead ++ encodeFrom text others 128 ⟨0, 72, basic.length, true⟩

/-! ## Decoding -/

/-- Reads one distance: its value and the text behind it. -/
def readDistance? (bias : Nat) : (k weight : Nat) → List Char → Option (Nat × List Char)
  | _, _, [] => none
  | k, weight, c :: cs => do
    let d ← digitValue? c
    let t := threshold k bias
    if d < t then some (d * weight, cs)
    else
      let (more, rest) ← readDistance? bias (k + 36) (weight * (36 - t)) cs
      some (d * weight + more, rest)

/-- Carries out insertions; `fuel` bounds their number. -/
def decodeFrom (fuel n position bias : Nat) (first : Bool) (out digits : List Char) :
    Option (List Char) :=
  match fuel, digits with
  | _, [] => some out
  | 0, _ => none
  | fuel + 1, digits => do
    let (distance, rest) ← readDistance? bias 36 1 digits
    let count := out.length + 1
    let slot := position + distance
    let m := n + slot / count
    if m.isValidChar ∧ 128 ≤ m then
      let c := Char.ofNat m
      let out := out.take (slot % count) ++ c :: out.drop (slot % count)
      decodeFrom fuel m (slot % count + 1) (adapt distance count first) false out rest
    else none

/-- The text of a punycode form. -/
def decode? (cs : List Char) : Option (List Char) :=
  let back := cs.reverse
  let digits := (back.takeWhile (· != '-')).reverse
  let basic := ((back.dropWhile (· != '-')).drop 1).reverse
  if cs.all (·.toNat < 128) then
    decodeFrom (cs.length + 1) 128 0 72 true basic digits
  else none

end Upnp.Url.Punycode
