import Upnp.Text.CaseTable

/-
Lower case for whole texts. Each character has its own lower case form, with two exceptions: the
dotted capital I becomes two characters, and a capital sigma at the end of a word becomes the
final small sigma.
-/

namespace Upnp.Text

def inRanges (ranges : List (Nat × Nat)) (c : Char) : Bool :=
  ranges.any fun (first, last) => first ≤ c.toNat && c.toNat ≤ last

def CaseRun.contains (r : CaseRun) (c : Char) : Bool :=
  r.first ≤ c.toNat && c.toNat ≤ r.last && (c.toNat - r.first) % r.step == 0

/-- The lower case form of one character by itself. -/
def lowerChar (c : Char) : Char :=
  if c.toNat < 0x80 then c.toLower
  else
    match CaseTable.lowerRuns.find? (·.contains c) with
    | some r => Char.ofNat (c.toNat + r.distance).toNat
    | none => c

/-- Whether a text, read away from a sigma, shows a cased character first. -/
def meetsCased (cs : List Char) : Bool :=
  match cs.dropWhile (inRanges CaseTable.ignorable) with
  | c :: _ => inRanges CaseTable.cased c
  | [] => false

/-- Lower case behind the characters already passed, which come nearest first. -/
def lowerFrom : List Char → List Char → List Char
  | _, [] => []
  | passed, c :: cs =>
    let low :=
      if c = 'Σ' then [if meetsCased passed && !meetsCased cs then 'ς' else 'σ']
      else if c = 'İ' then ['i', '\u0307']
      else [lowerChar c]
    low ++ lowerFrom (c :: passed) cs

/-- The text in lower case. -/
def toLower (s : String) : String :=
  String.ofList (lowerFrom [] s.toList)

end Upnp.Text
