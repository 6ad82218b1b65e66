import Upnp.Text.Digit

/-
The character classes of XML, and references to characters by number or by one of the five
predefined names.
-/

namespace Upnp.Xml

open Upnp.Text

/-- White space between the parts of a tag. -/
def isSpace (c : Char) : Bool :=
  c == ' ' || c == '\t' || c == '\n' || c == '\r'

/-- Characters that a document of version 1.0 may hold. -/
def isXmlChar (c : Char) : Bool :=
  let n := c.toNat
  n == 9 || n == 10 || n == 13 || (0x20 ≤ n && n != 0xFFFE && n != 0xFFFF)

/-- Characters that a document of version 1.1 may hold, if need be by reference. -/
def isXml11Char (c : Char) : Bool :=
  let n := c.toNat
  1 ≤ n && n != 0xFFFE && n != 0xFFFF

def isNameStart (c : Char) : Bool :=
  let n := c.toNat
  c.isAlpha || c == '_' || c == ':' || (0xC0 ≤ n && n ≤ 0x2FF && n != 0xD7 && n != 0xF7) ||
    (0x370 ≤ n && n ≤ 0x1FFF && n != 0x37E) || n == 0x200C || n == 0x200D ||
    (0x2070 ≤ n && n ≤ 0x218F) || (0x2C00 ≤ n && n ≤ 0x2FEF) || (0x3001 ≤ n && n ≤ 0xD7FF) ||
    (0xF900 ≤ n && n ≤ 0xFDCF) || (0xFDF0 ≤ n && n ≤ 0xFFFD) || (0x10000 ≤ n && n ≤ 0xEFFFF)

def isNameChar (c : Char) : Bool :=
  let n := c.toNat
  isNameStart c || c.isDigit || c == '-' || c == '.' || n == 0xB7 || (0x300 ≤ n && n ≤ 0x36F) ||
    n == 0x203F || n == 0x2040

/-! ## References -/

/-- The character that a number names, decimal or, behind an `x`, hexadecimal; never NUL. -/
def charOfNumber? (cs : List Char) : Option Char := do
  let n ← match cs with
    | 'x' :: ds => readDigits? 16 ds
    | ds => readDigits? 10 ds
  if n = 0 then none else charOfNat? n

/-- The character with a predefined name. -/
def predefined? (name : List Char) : Option Char :=
  match String.ofList name with
  | "lt" => some '<'
  | "gt" => some '>'
  | "amp" => some '&'
  | "apos" => some '\''
  | "quot" => some '"'
  | _ => none

end Upnp.Xml
