import Upnp.Device.Basic

/-
Making a device complete, so that it can be served: every device gets a unique name and an address
for its description, every service gets its addresses. What is there already is kept.
-/

namespace Upnp

/-- The address of a device's description unless it has another. -/
def defaultDescriptionUrl : String := "/description.xml"

namespace DeviceNode

/-- Completes a device by itself; `uuid` is for the name, if it has none. -/
def revise (uuid : String) (n : DeviceNode) : DeviceNode :=
  { n with
    descriptionUrl := Service.orElseText n.descriptionUrl defaultDescriptionUrl
    udn := Service.orElseText n.udn (Device.udnOfUuid uuid)
    services := n.services.map Service.revise }

/-- How many UUIDs completing the device takes. -/
def uuidsNeeded (n : DeviceNode) : Nat :=
  if n.udn = "" then 1 else 0

end DeviceNode

namespace Device

mutual

/-- Completes all devices of a tree, taking UUIDs from number `i` of a source on, and gives the
number of the next. Each device tells its parts anew what they belong to when it is complete. -/
def revise (uuid : Nat → String) (i : Nat) : Device → Device × Nat
  | ⟨n, ds⟩ =>
    let (ds, j) := reviseAll uuid (i + n.uuidsNeeded) ds
    (relink ⟨n.revise (uuid i), ds⟩, j)

def reviseAll (uuid : Nat → String) (i : Nat) : List Device → List Device × Nat
  | [] => ([], i)
  | d :: ds =>
    let (d, j) := revise uuid i d
    let (ds, k) := reviseAll uuid j ds
    (d :: ds, k)

end

end Device

end Upnp
