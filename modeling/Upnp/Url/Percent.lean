import Upnp.Text.Utf8

/-
Percent encoding. Each part of a URL has a set of ASCII characters that it must not hold as such;
these and all characters outside ASCII are written as the percent signs and hexadecimal digits of
their UTF-8 octets.
-/

namespace Upnp.Url.Percent

open Upnp.Text

/-! ## Sets of characters to encode -/

def inControls (c : Char) : Bool :=
  c.toNat < 0x20 || 0x7F ≤ c.toNat

def inFragment (c : Char) : Bool :=
  inControls c || [' ', '"', '<', '>', '\x60'].contains c

def inQuery (c : Char) : Bool :=
  inControls c || [' ', '"', '#', '<', '>'].contains c

/-- The query of the schemes of the web also encodes the apostrophe. -/
def inSpecialQuery (c : Char) : Bool :=
  inQuery c || c == '\''

def inPath (c : Char) : Bool :=
  inFragment c || ['#', '?', '\x7b', '\x7d'].contains c

def inUserinfo (c : Char) : Bool :=
  inPath c || ['/', ':', ';', '=', '@', '[', '\\', ']', '^', '|'].contains c

/-! ## Encoding and decoding -/

def upperHex (n : Nat) : Char :=
  if n < 10 then Char.ofNat (48 + n) else Char.ofNat (55 + n)

def encodeOctet (b : UInt8) : List Char :=
  ['%', upperHex (b.toNat / 16), upperHex (b.toNat % 16)]

/-- A character, encoded if it is in the set. -/
def encodeChar (inSet : Char → Bool) (c : Char) : List Char :=
  if inSet c then (Utf8.encodeChar c).flatMap encodeOctet else [c]

def encode (inSet : Char → Bool) (cs : List Char) : List Char :=
  cs.flatMap (encodeChar inSet)

/-- The value of a hexadecimal digit. -/
def hexDigit? (n : Nat) : Option Nat :=
  if 48 ≤ n ∧ n ≤ 57 then some (n - 48)
  else if 65 ≤ n ∧ n ≤ 70 then some (n - 55)
  else if 97 ≤ n ∧ n ≤ 102 then some (n - 87)
  else none

/-- Replaces each percent sign before two hexadecimal digits by their octet. -/
def decodeOctets : Utf8.Octets → Utf8.Octets
  | 37 :: a :: b :: bs =>
    match hexDigit? a.toNat, hexDigit? b.toNat with
    | some x, some y => UInt8.ofNat (16 * x + y) :: decodeOctets bs
    | _, _ => 37 :: decodeOctets (a :: b :: bs)
  | b :: bs => b :: decodeOctets bs
  | [] => []

/-- The characters of a text with its percent encoding undone, if they are UTF-8. -/
def decode? (cs : List Char) : Option (List Char) :=
  (Utf8.decodeChars (decodeOctets (Utf8.encodeChars cs))).toOption

end Upnp.Url.Percent
