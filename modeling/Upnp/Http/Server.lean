import Upnp.Http.Client
import Upnp.Text.Split

/-
Requests to a web server and the answers to them.
-/

namespace Upnp.Http

open Upnp.Text

/-- A request as a server sees it. -/
structure Request where
  method : String
  path : String
  headers : List (String × Utf8.Octets) := []
  body : Utf8.Octets := []
  deriving Repr, DecidableEq

/-- Whether an octet is a visible ASCII character, a blank or a tab. -/
def isVisible (b : UInt8) : Bool :=
  b == 9 || (32 ≤ b && b < 127)

/-- The value of the first header of a name, in any letter case, if it can be read as text. -/
def Request.header? (r : Request) (name : String) : Option String :=
  (r.headers.find? fun (n, _) => eqIgnoringAsciiCase n name).bind fun (_, value) =>
    if value.all isVisible then some (Utf8.decodeLossy value) else none

/-- The answer of a server. -/
structure Response where
  status : Nat
  contentType : Option String := none
  server : Option String := none
  body : String := ""
  deriving Repr, DecidableEq

end Upnp.Http
