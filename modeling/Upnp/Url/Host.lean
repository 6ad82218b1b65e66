import Upnp.Text.Split
import Upnp.Text.LowerCase
import Upnp.Url.Percent
import Upnp.Url.Punycode

/-
Hosts of URLs: domains, IPv4 and IPv6 addresses. In the schemes of the web a host whose last label
is a number must be an IPv4 address, and a domain is brought to lower case ASCII form. The rule by
which it is can be another one than that of this module, which knows no tables of all scripts.
-/

namespace Upnp.Url

open Upnp.Text

inductive Host where
  | domain (name : String)
  | ipv4 (address : Nat)
  /-- Eight groups of 16 bits. -/
  | ipv6 (groups : List Nat)
  deriving Repr, DecidableEq

/-! ## IPv4 -/

/-- A number of an IPv4 address, with a mark for its base. -/
def readIpv4Number? (cs : List Char) : Option Nat :=
  match cs with
  | [] => none
  | '0' :: 'x' :: ds => digits 16 ds
  | '0' :: 'X' :: ds => digits 16 ds
  | '0' :: d :: ds => digits 8 (d :: ds)
  | ds => digits 10 ds
where
  digits (base : Nat) (ds : List Char) : Option Nat :=
    ds.foldlM (fun acc c => do
      let d ← Percent.hexDigit? c.toNat
      if d < base then some (acc * base + d) else none) 0

/-- The labels of a domain, without the empty one behind a final dot. -/
def labelsOf (cs : List Char) : List (List Char) :=
  let parts := splitAll ['.'] cs
  if parts.length > 1 ∧ parts.getLast? = some [] then parts.dropLast else parts

/-- Whether the last label of a domain is a number. -/
def endsInNumber (cs : List Char) : Bool :=
  match (labelsOf cs).getLast? with
  | some last => (!last.isEmpty && last.all Char.isDigit) || (readIpv4Number? last).isSome
  | none => false

/-- The address of up to four numbers: all but the last fill one octet each. -/
def ipv4OfNumbers? (numbers : List Nat) : Option Nat :=
  match numbers.reverse with
  | [] => none
  | last :: front =>
    let octets := front.reverse
    if octets.length > 3 ∨ octets.any (· > 255) ∨ last ≥ Nat.pow 256 (4 - octets.length) then none
    else some (octets.zipIdx.foldl (fun acc (n, i) => acc + n * Nat.pow 256 (3 - i)) last)

def readIpv4? (cs : List Char) : Option Nat := do
  let parts := splitAll ['.'] cs
  let parts := if parts.getLast? = some [] then parts.dropLast else parts
  ipv4OfNumbers? (← parts.mapM readIpv4Number?)

def writeIpv4 (n : Nat) : String :=
  ".".intercalate ([16777216, 65536, 256, 1].map fun unit => toString (n / unit % 256))

/-! ## IPv6 -/

/-- An octet in decimal without leading zeros, and what follows. -/
def readOctet? (cs : List Char) : Option (Nat × List Char) :=
  let ds := cs.takeWhile Char.isDigit
  let n := ds.foldl (fun acc c => acc * 10 + (c.toNat - 48)) 0
  if ds.isEmpty ∨ n > 255 ∨ (ds.length > 1 ∧ ds.head? = some '0') then none
  else some (n, cs.dropWhile Char.isDigit)

/-- Two groups from a dotted IPv4 address that fills the whole text. -/
def readDottedGroups? (cs : List Char) : Option (List Nat) := do
  let (a, r) ← readOctet? cs
  let r ← dot? r
  let (b, r) ← readOctet? r
  let r ← dot? r
  let (c, r) ← readOctet? r
  let r ← dot? r
  let (d, r) ← readOctet? r
  if r.isEmpty then some [256 * a + b, 256 * c + d] else none
where
  dot? : List Char → Option (List Char)
    | '.' :: r => some r
    | _ => none

/-- Groups read so far, and how many of them stand before the gap of zeros. -/
structure Groups where
  groups : List Nat
  gap : Option Nat

/-- The positions taken; a gap takes at least one. -/
def Groups.count (g : Groups) : Nat :=
  g.groups.length + (if g.gap.isSome then 1 else 0)

/-- All eight groups, the gap filled with zeros. -/
def Groups.fill? (g : Groups) : Option (List Nat) :=
  match g.gap with
  | some k => some (g.groups.take k ++ List.replicate (8 - g.groups.length) 0 ++ g.groups.drop k)
  | none => if g.groups.length = 8 then some g.groups else none

def isHex (c : Char) : Bool :=
  (Percent.hexDigit? c.toNat).isSome

/-- Reads groups up to the end of the text; `fuel` bounds their number. -/
def readGroups? : (fuel : Nat) → Groups → List Char → Option Groups
  | _, g, [] => some g
  | 0, _, _ => none
  | fuel + 1, g, c :: cs =>
    if g.count = 8 then none
    else if c = ':' then
      if g.gap.isSome then none else readGroups? fuel { g with gap := some g.groups.length } cs
    else
      let ds := ((c :: cs).takeWhile isHex).take 4
      let rest := (c :: cs).drop ds.length
      let value := ds.foldl (fun acc d => acc * 16 + (Percent.hexDigit? d.toNat).getD 0) 0
      let next := { g with groups := g.groups ++ [value] }
      match rest with
      | [] => if ds.isEmpty then none else some next
      | '.' :: _ =>
        if ds.isEmpty ∨ g.count > 6 then none
        else (readDottedGroups? (c :: cs)).map fun two => { g with groups := g.groups ++ two }
      | [':'] => none
      | ':' :: rest => readGroups? fuel next rest
      | _ => none

/-- The groups of an IPv6 address. -/
def readIpv6? (cs : List Char) : Option (List Nat) := do
  let g ← match cs with
    | ':' :: ':' :: rest => readGroups? (cs.length + 1) ⟨[], some 0⟩ rest
    | ':' :: _ => none
    | cs => readGroups? (cs.length + 1) ⟨[], none⟩ cs
  g.fill?

/-- The length of the run of zeros at the front. -/
def zeroRun (groups : List Nat) : Nat :=
  (groups.takeWhile (· == 0)).length

/-- Start and length of the first longest run of at least two zeros. -/
def longestZeros? (groups : List Nat) : Option (Nat × Nat) :=
  (List.range groups.length).foldl (fun best i =>
    let n := zeroRun (groups.drop i)
    if n ≥ 2 ∧ n > (best.map Prod.snd).getD 0 then some (i, n) else best) none

def writeHex (n : Nat) : String :=
  String.ofList (Nat.toDigits 16 n)

def writeIpv6 (groups : List Nat) : String :=
  let write (gs : List Nat) := ":".intercalate (gs.map writeHex)
  match longestZeros? groups with
  | some (i, n) => write (groups.take i) ++ "::" ++ write (groups.drop (i + n))
  | none => write groups

/-! ## Domains -/

/-- Characters that no domain holds. -/
def isForbiddenInDomain (c : Char) : Bool :=
  c.toNat ≤ 0x20 || c.toNat == 0x7F ||
    ['%', '#', '/', ':', '<', '>', '?', '@', '[', '\\', ']', '^', '|'].contains c

/-- Characters that no host of another scheme holds. -/
def isForbiddenInHost (c : Char) : Bool :=
  ['\x00', '\t', '\n', '\r', ' ', '#', '/', ':', '<', '>', '?', '@', '[', '\\', ']', '^',
    '|'].contains c

/-- Characters that vanish from domains. -/
def isIgnoredInDomain (c : Char) : Bool :=
  ['\u00AD', '\u200B', '\u2060', '\uFEFF'].contains c

/-- What a character of a domain counts as: full width forms as ASCII, ideographic stops as dots,
letters as small ones. -/
def foldDomainChar (c : Char) : List Char :=
  let n := c.toNat
  if isIgnoredInDomain c then []
  else if c = '。' ∨ c = '｡' then ['.']
  else if 0xFF01 ≤ n ∧ n ≤ 0xFF5E then [(Char.ofNat (n - 0xFEE0)).toLower]
  else lowerFrom [] [c]

/-- Runs of characters that no label holds: controls, line separators and marks of direction,
characters for private use, and those that are none. -/
def unfitRuns : List (Nat × Nat) :=
  [(0x80, 0x9F), (0x2028, 0x202E), (0xE000, 0xF8FF), (0xFDD0, 0xFDEF), (0xFFF9, 0xFFFF),
    (0xE01F0, 0x10FFFF)]

/-- Whether a text beyond ASCII can be a label: it counts as itself, and all its characters are
fit. -/
def isWideLabel (text : List Char) : Bool :=
  !text.all (·.toNat < 128) && text.flatMap foldDomainChar == text &&
    text.all fun c => unfitRuns.all fun run => c.toNat < run.1 || run.2 < c.toNat

/-- A label in ASCII form. -/
def asciiLabel? (label : List Char) : Option (List Char) :=
  if label.all (·.toNat < 128) then
    match label with
    | 'x' :: 'n' :: '-' :: '-' :: rest =>
      if (Punycode.decode? rest).any isWideLabel then some label else none
    | _ => some label
  else if isWideLabel label then some ("xn--".toList ++ Punycode.encode label)
  else none

/-- A rule for domains: what a text is in ASCII form, if it is a domain. -/
abbrev DomainRule := List Char → Option (List Char)

/-- The rule for domains that need no tables but those for small letters. -/
def asciiDomain? (cs : List Char) : Option (List Char) := do
  let labels ← (splitAll ['.'] (cs.flatMap foldDomainChar)).mapM asciiLabel?
  let domain := ['.'].intercalate labels
  if domain.any isForbiddenInDomain then none else some domain

/-! ## Hosts -/

def readBracketed? (cs : List Char) : Option Host :=
  if cs.getLast? = some ']' then (readIpv6? (cs.drop 1).dropLast).map .ipv6 else none

/-- The host of a scheme of the web, by a rule for domains. -/
def readWebHost? (cs : List Char) (toAscii : DomainRule := asciiDomain?) : Option Host :=
  if cs.head? = some '[' then readBracketed? cs
  else do
    let domain ← toAscii (← Percent.decode? cs)
    if domain.isEmpty then none
    else if endsInNumber domain then (readIpv4? domain).map .ipv4
    else some (.domain (String.ofList domain))

/-- The host of any other scheme. -/
def readOtherHost? (cs : List Char) : Option Host :=
  if cs.head? = some '[' then readBracketed? cs
  else if cs.any isForbiddenInHost then none
  else some (.domain (String.ofList (Percent.encode Percent.inControls cs)))

def Host.text : Host → String
  | .domain name => name
  | .ipv4 address => writeIpv4 address
  | .ipv6 groups => "[" ++ writeIpv6 groups ++ "]"

end Upnp.Url
