import Upnp.Device.Basic

/-
Finding parts of a device: its own services and the devices directly embedded in it by what
identifies them, and, anywhere in the tree, devices and services of a type.
-/

namespace Upnp.Device

/-- The first of the device's own services with a property; `key` is what was asked for. -/
def findService (d : Device) (key : String) (p : Service → Bool) :
    Except DescriptionError Service :=
  match d.node.services.find? p with
  | some s => .ok s
  | none => .error (.serviceNotFound key)

def serviceByType (d : Device) (serviceType : String) : Except DescriptionError Service :=
  d.findService serviceType (·.serviceType == serviceType)

def serviceById (d : Device) (serviceId : String) : Except DescriptionError Service :=
  d.findService serviceId (·.serviceId == serviceId)

def serviceByControlUrl (d : Device) (url : String) : Except DescriptionError Service :=
  d.findService url (·.controlUrl == url)

def serviceByEventSubUrl (d : Device) (url : String) : Except DescriptionError Service :=
  d.findService url (·.eventSubUrl == url)

def serviceByScpdUrl (d : Device) (url : String) : Except DescriptionError Service :=
  d.findService url (·.scpdUrl == url)

/-- The first embedded device of a type. -/
def embeddedByType (d : Device) (deviceType : String) : Except DescriptionError Device :=
  match d.embedded.find? (·.node.deviceType == deviceType) with
  | some e => .ok e
  | none => .error (.embeddedDeviceNotFound deviceType)

mutual

/-- Whether the device or one embedded in it is of a type. -/
def hasDeviceType (deviceType : String) : Device → Bool
  | ⟨n, ds⟩ => n.deviceType == deviceType || anyHasDeviceType deviceType ds

def anyHasDeviceType (deviceType : String) : List Device → Bool
  | [] => false
  | d :: ds => d.hasDeviceType deviceType || anyHasDeviceType deviceType ds

end

mutual

/-- Whether the device or one embedded in it has a service of a type. -/
def hasServiceType (serviceType : String) : Device → Bool
  | ⟨n, ds⟩ => n.services.any (·.serviceType == serviceType) || anyHasServiceType serviceType ds

def anyHasServiceType (serviceType : String) : List Device → Bool
  | [] => false
  | d :: ds => d.hasServiceType serviceType || anyHasServiceType serviceType ds

end

/-! ## URLs -/

/-- The absolute URL of a path of the device. -/
def absoluteUrl (d : Device) (path : String) : Except DescriptionError Url :=
  d.link.absoluteUrl path

/-- Where the description is found on a server of this address and port. -/
def locationUrlFor (d : Device) (address : String) (port : Nat) : Except DescriptionError Url :=
  (Url.absolute ("http://" ++ address ++ ":" ++ Decimal.showInt port)
    d.node.descriptionUrl).mapError .url

end Upnp.Device
