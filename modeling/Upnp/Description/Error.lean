import Upnp.Http.Client
import Upnp.Url.Resolve
import Upnp.Xml.Reader

/-
What can go wrong when a description is fetched, read or searched.
-/

namespace Upnp

inductive DescriptionError where
  /-- The document is not well formed. -/
  | malformed
  | unexpectedRoot (expected found : String)
  | missingElement (name : String)
  | http (e : Http.Error)
  | url (e : Url.Error)
  | missingLocation
  | badLocation (url : String)
  | noAbsoluteUrl (urlBase location path : String)
  | noParentDevice (serviceType : String)
  | serviceNotFound (key : String)
  | embeddedDeviceNotFound (deviceType : String)
  | noServiceDescription (action serviceType : String)
  | actionNotFound (action serviceType : String)
  deriving Repr, DecidableEq

namespace DescriptionError

def message : DescriptionError → String
  | .malformed => "XML parse error"
  | .unexpectedRoot expected found =>
    "unexpected root element <" ++ found ++ "> (expected <" ++ expected ++ ">)"
  | .missingElement name => "missing <" ++ name ++ "> element"
  | .http e => e.message
  | .url e => e.message
  | .missingLocation => "SSDP packet has no LOCATION header"
  | .badLocation location => "location url is invalid (" ++ location ++ ")"
  | .noAbsoluteUrl urlBase location path =>
    "URLBase and location url are invalid ('" ++ urlBase ++ "', '" ++ location ++
      "'). Couldn't get an absolute URL ('" ++ path ++ "')"
  | .noParentDevice serviceType => "service (" ++ serviceType ++ ") has no parent device"
  | .serviceNotFound key => "service (" ++ key ++ ") is not found"
  | .embeddedDeviceNotFound deviceType => "embedded device (" ++ deviceType ++ ") is not found"
  | .noServiceDescription action serviceType =>
    "action (" ++ action ++ ") is not found. service (" ++ serviceType ++
      ") description is not loaded."
  | .actionNotFound action serviceType =>
    "action (" ++ action ++ ") is not found in the service (" ++ serviceType ++ ")"

end DescriptionError

/-- Reads a document whose root has a given name. -/
def readDocument (expected text : String) : Except DescriptionError Xml.Element :=
  match Xml.read? text with
  | none => .error .malformed
  | some root =>
    if root.name = expected then .ok root else .error (.unexpectedRoot expected root.name)

end Upnp
