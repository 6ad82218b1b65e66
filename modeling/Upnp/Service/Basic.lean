import Upnp.Action.Basic
import Upnp.Description.Version
import Upnp.Service.Variable

/-
Services: their type, identity and addresses, and the actions and state variables of their
descriptions. Every change that an action has to know of is passed on to the actions.
-/

namespace Upnp

structure Service where
  serviceType : String
  serviceId : String
  scpdUrl : String := ""
  controlUrl : String := ""
  eventSubUrl : String := ""
  version : SpecVersion := {}
  actions : List Action := []
  stateVariables : List StateVariable := []
  /-- Whether the description is there. -/
  hasDescription : Bool := false
  device : Option DeviceLink := none
  deriving Repr, DecidableEq

namespace Service

/-- What the actions know about the service. -/
def link (s : Service) : ServiceLink :=
  ⟨s.serviceType, s.serviceId, s.scpdUrl, s.controlUrl, s.eventSubUrl, s.device⟩

/-- Tells the actions what they have to know about the service. -/
def relink (s : Service) : Service :=
  { s with actions := s.actions.map (Action.attach s.link) }

/-- Makes the service one of a device. -/
def attach (device : DeviceLink) (s : Service) : Service :=
  relink { s with device := some device }

/-! ## Changes -/

def setServiceType (s : Service) (serviceType : String) : Service :=
  relink { s with serviceType }

def setServiceId (s : Service) (serviceId : String) : Service :=
  relink { s with serviceId }

def setScpdUrl (s : Service) (scpdUrl : String) : Service :=
  relink { s with scpdUrl }

def setControlUrl (s : Service) (controlUrl : String) : Service :=
  relink { s with controlUrl }

def setEventSubUrl (s : Service) (eventSubUrl : String) : Service :=
  relink { s with eventSubUrl }

def addAction (s : Service) (a : Action) : Service :=
  { s with actions := s.actions ++ [a.attach s.link], hasDescription := true }

def addVariable (s : Service) (v : StateVariable) : Service :=
  { s with stateVariables := s.stateVariables ++ [v], hasDescription := true }

/-! ## Queries -/

/-- The first action of a name. -/
def action (s : Service) (name : String) : Except DescriptionError Action :=
  if !s.hasDescription then .error (.noServiceDescription name s.serviceType)
  else
    match s.actions.find? (·.name == name) with
    | some a => .ok a
    | none => .error (.actionNotFound name s.serviceType)

/-- The first state variable of a name. -/
def stateVariable? (s : Service) (name : String) : Option StateVariable :=
  s.stateVariables.find? (·.name == name)

/-! ## Default addresses -/

/-- The word that tells the service from others in addresses: the last but one part of its type,
or its identity if the type has only one part. -/
def shortType (s : Service) : String :=
  match (Text.splitText ":" s.serviceType).reverse with
  | _ :: part :: _ => part
  | _ => s.serviceId

/-- A text, or another in its place if it is empty. -/
def orElseText (text other : String) : String :=
  if text = "" then other else text

/-- Gives the service the addresses that it lacks. -/
def revise (s : Service) : Service :=
  let short := s.shortType
  relink { s with
    scpdUrl := orElseText s.scpdUrl ("/service/scpd/" ++ short ++ ".xml")
    controlUrl := orElseText s.controlUrl ("/service/control/" ++ short)
    eventSubUrl := orElseText s.eventSubUrl ("/service/event/" ++ short) }

end Service

end Upnp
