import Upnp.Device.Basic

/-
The devices that are known. A device is identified by its type and unique name, both of which it
must have; the first of an identity stays, and none is ever removed.
-/

namespace Upnp

/-- Known devices in the order in which they were added. -/
structure Registry where
  devices : List Device := []
  deriving Repr

namespace Registry

/-- The device of a type and unique name. -/
def find? (r : Registry) (deviceType udn : String) : Option Device :=
  r.devices.find? fun d => d.node.deviceType == deviceType && d.node.udn == udn

def has (r : Registry) (deviceType udn : String) : Bool :=
  (r.find? deviceType udn).isSome

/-- Whether a device of the same identity is known. -/
def contains (r : Registry) (d : Device) : Bool :=
  r.has d.node.deviceType d.node.udn

/-- Whether a device can be added. -/
def accepts (r : Registry) (d : Device) : Bool :=
  d.node.deviceType != "" && d.node.udn != "" && !r.contains d

/-- Adds a device, if that is possible. -/
def add (r : Registry) (d : Device) : Registry :=
  if r.accepts d then ⟨r.devices ++ [d]⟩ else r

def ofType (r : Registry) (deviceType : String) : List Device :=
  r.devices.filter (·.node.deviceType == deviceType)

def size (r : Registry) : Nat :=
  r.devices.length

end Registry

end Upnp
