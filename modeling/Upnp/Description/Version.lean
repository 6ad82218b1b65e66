import Upnp.Decimal.Integer
import Upnp.Xml.Node

/-
The version of the architecture that a description follows.
-/

namespace Upnp

open Upnp.Xml Upnp.Decimal

structure SpecVersion where
  major : Nat := 1
  minor : Nat := 1
  deriving Repr, DecidableEq

namespace SpecVersion

/-- The number in a child of an element, one where there is none. -/
def readNumber (e : Element) (name : String) : Nat :=
  ((readInt? .unsigned32 (e.childText name)).map Int.toNat).getD 1

def ofElement (e : Element) : SpecVersion :=
  ⟨readNumber e "major", readNumber e "minor"⟩

/-- The version that the root of a description gives. -/
def ofRoot (root : Element) : SpecVersion :=
  ((root.child? "specVersion").map ofElement).getD {}

def toElement (v : SpecVersion) : Element :=
  .ofElements "specVersion" [.ofText "major" (showInt v.major), .ofText "minor" (showInt v.minor)]

end SpecVersion

end Upnp
