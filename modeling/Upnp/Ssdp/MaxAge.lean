import Upnp.Text.Blank
import Upnp.Text.Split
import Upnp.Decimal.Integer

/-
The lifetime of an announcement, from the `max-age` directive of a cache control text. The
directive is sought in any letter case; blanks and equals signs before its digits are passed over.
-/

namespace Upnp.Ssdp

open Upnp.Text Upnp.Decimal

/-- The lifetime in seconds where none is given. -/
def defaultMaxAge : Nat := 1800

/-- The decimal digits behind the first `max-age` of a text in lower case. -/
def maxAgeDigits? (cs : List Char) : Option (List Char) :=
  (splitOnce? "max-age".toList cs).map fun (_, after) =>
    (dropBlanks ((dropBlanks after).dropWhile (· == '='))).takeWhile Char.isDigit

/-- The lifetime that a cache control text gives. -/
def maxAge (value : Option String) : Nat :=
  let age? := do
    let text ← value
    let digits ← maxAgeDigits? (text.toList.map Char.toLower)
    (readIntChars .unsigned32 digits).toOption
  (age?.map Int.toNat).getD defaultMaxAge

end Upnp.Ssdp
