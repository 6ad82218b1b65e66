import Upnp.Description.Error

/-
The identity of a device and the addresses by which its URLs are completed, as the parts of the
device carry it with them. The addresses are those of the root device.
-/

namespace Upnp

/-- What a part of a device knows about the device. -/
structure DeviceLink where
  deviceType : String
  udn : String
  parentUdn : Option String
  urlBase : String
  locationUrl : String
  deriving Repr, DecidableEq

namespace DeviceLink

/-- The path behind a base, unless the base is empty. -/
def behind? (base path : String) (toAscii : Url.DomainRule := Url.asciiDomain?) : Option Url :=
  if base = "" then none else (Url.absolute base path toAscii).toOption

/-- The absolute URL of a path: behind the base URL, else behind the origin of the location, else
by itself. Domains are brought to ASCII form by a rule. -/
def absoluteUrl (l : DeviceLink) (path : String)
    (toAscii : Url.DomainRule := Url.asciiDomain?) : Except DescriptionError Url :=
  match behind? l.urlBase path toAscii with
  | some u => .ok u
  | none =>
    match if l.locationUrl = "" then .ok "" else Url.origin l.locationUrl toAscii with
    | .error _ => .error (.badLocation l.locationUrl)
    | .ok origin =>
      match behind? origin path toAscii with
      | some u => .ok u
      | none =>
        match Url.absolute "" path toAscii with
        | .ok u => .ok u
        | .error _ => .error (.noAbsoluteUrl l.urlBase l.locationUrl path)

end DeviceLink

/-- What an action knows about the service it belongs to. -/
structure ServiceLink where
  serviceType : String
  serviceId : String
  scpdUrl : String
  controlUrl : String
  eventSubUrl : String
  device : Option DeviceLink
  deriving Repr, DecidableEq

namespace ServiceLink

/-- The absolute URL of a path of the service. -/
def absoluteUrl (l : ServiceLink) (path : String) : Except DescriptionError Url :=
  match l.device with
  | some d => d.absoluteUrl path
  | none => .error (.noParentDevice l.serviceType)

def absoluteScpdUrl (l : ServiceLink) : Except DescriptionError Url :=
  l.absoluteUrl l.scpdUrl

def absoluteControlUrl (l : ServiceLink) : Except DescriptionError Url :=
  l.absoluteUrl l.controlUrl

def absoluteEventSubUrl (l : ServiceLink) : Except DescriptionError Url :=
  l.absoluteUrl l.eventSubUrl

end ServiceLink

end Upnp
