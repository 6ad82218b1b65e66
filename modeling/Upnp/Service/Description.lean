import Upnp.Service.Basic
import Upnp.Xml.Writer

/-
The two descriptions of a service: its entry in the description of its device, and the document
of its own that lists actions and state variables.
-/

namespace Upnp.Service

open Upnp.Xml

/-- The namespace of service descriptions. -/
def xmlNamespace : String := "urn:schemas-upnp-org:service-1-0"

/-! ## The entry in the device's description -/

def ofEntry (e : Element) : Service :=
  { serviceType := e.childText "serviceType"
    serviceId := e.childText "serviceId"
    scpdUrl := e.childText "SCPDURL"
    controlUrl := e.childText "controlURL"
    eventSubUrl := e.childText "eventSubURL" }

def toEntry (s : Service) : Element :=
  .ofElements "service" [
    .ofText "serviceType" s.serviceType,
    .ofText "serviceId" s.serviceId,
    .ofText "SCPDURL" s.scpdUrl,
    .ofText "controlURL" s.controlUrl,
    .ofText "eventSubURL" s.eventSubUrl]

/-! ## The service's own description -/

/-- Takes version, actions and variables from the root of a description. -/
def describe (s : Service) (root : Element) : Service :=
  relink { s with
    version := .ofRoot root
    actions := (root.listed "actionList" "action").map Action.ofElement
    stateVariables := (root.listed "serviceStateTable" "stateVariable").map StateVariable.ofElement
    hasDescription := true }

/-- Takes version, actions and variables from the text of a description. -/
def load (s : Service) (text : String) : Except DescriptionError Service :=
  (readDocument "scpd" text).map s.describe

def toElement (s : Service) : Element :=
  let e := Element.ofElements "scpd" [
    s.version.toElement,
    .ofElements "actionList" (s.actions.map Action.toElement),
    .ofElements "serviceStateTable" (s.stateVariables.map StateVariable.toElement)]
  { e with attributes := [("xmlns", xmlNamespace)] }

/-- The text of the description. -/
def description (s : Service) : String :=
  write s.toElement

/-! ## Fetching it -/

/-- Fetches and loads the description; a service without an address for it is left as it is. -/
def fetch (network : Http.Network) (s : Service) : Except DescriptionError Service :=
  if s.scpdUrl = "" then .ok s
  else
    match s.link.absoluteScpdUrl with
    | .error e => .error e
    | .ok url =>
      match network url.text with
      | .error e => .error (.http e)
      | .ok text => s.load text

end Upnp.Service
