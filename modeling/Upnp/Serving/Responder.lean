import Upnp.Action.Control
import Upnp.Device.Description
import Upnp.Device.Find
import Upnp.Http.Server
import Upnp.Ssdp.Message

/-
How a device answers: searches are answered when they match the device, requests to its web server
when they ask for a description or invoke an action. All other requests go to a hook of the
application.
-/

namespace Upnp

/-- A device that is being served. -/
structure Responder where
  device : Device
  /-- What the device says of its software. -/
  server : String
  /-- The port of the web server. -/
  port : Nat
  interfaces : List Net.Interface := []
  deriving Repr

namespace Responder

/-! ## Searches -/

/-- Whether a search is for this device, one embedded in it or one of their services. -/
def matchesSearch (r : Responder) (p : Ssdp.Packet) : Bool :=
  p.isDiscover &&
    (p.isRootSearch ||
      match p.get? .st with
      | some target => r.device.hasDeviceType target || r.device.hasServiceType target
      | none => false)

/-- The unique name of a device as an answer to a search for a target. -/
def usnFor (udn target : String) : String :=
  if target = udn then udn else udn ++ "::" ++ target

/-- The answer to a search that goes out on an interface. -/
def searchResponse (r : Responder) (date : String) (p : Ssdp.Packet) (i : Net.Interface) :
    Except DescriptionError Ssdp.Packet :=
  (r.device.locationUrlFor i.address r.port).map fun location =>
    let target := (p.get? .st).getD ""
    ((((Ssdp.Packet.response r.server date).set .location location.text).set .st target).set
      .usn (usnFor r.device.node.udn target)).set .cacheControl
      ("max-age=" ++ Decimal.showInt Ssdp.defaultMaxAge)

/-- An answer that is sent. -/
structure SearchReply where
  interface : Net.Interface
  receiver : Net.Endpoint
  packet : Ssdp.Packet
  deriving Repr, DecidableEq

/-- What is sent in answer to a search: a response to its sender from the nearest interface, if the
search matches. -/
def searchReply? (r : Responder) (date : String) (p : Ssdp.Packet) : Option SearchReply :=
  if r.matchesSearch p then do
    let receiver ← p.sender
    let interface ← (Net.nearest r.interfaces receiver.address).toOption
    let packet ← (r.searchResponse date p interface).toOption
    some ⟨interface, receiver, packet⟩
  else none

/-! ## Requests -/

/-- The name of the action in an action header. -/
def actionName? (header : String) : Option String :=
  match Text.splitTextLast? '#' (Text.trimMatches '"' (Text.trim header)) with
  | some (_, name) => if name = "" then none else some name
  | none => none

def statusResponse (r : Responder) (status : Nat) : Http.Response :=
  { status, server := some r.server }

def xmlResponse (r : Responder) (status : Nat) (body : String) : Http.Response :=
  { status, contentType := some Http.xmlType, server := some r.server, body }

def faultResponse (r : Responder) (f : Soap.Fault) : Http.Response :=
  r.xmlResponse 500 (Soap.encodeFault f)

/-- The description at a path: the device's own or that of one of its services. -/
def descriptionAt? (r : Responder) (path : String) : Option String :=
  if path = r.device.node.descriptionUrl then some r.device.description
  else (r.device.serviceByScpdUrl path).toOption.map Service.description

/-- The action that a request to a control address names. -/
def route? (r : Responder) (request : Http.Request) : Option Action := do
  let service ← (r.device.serviceByControlUrl request.path).toOption
  let name ← (← request.header? Http.actionHeader) |> actionName?
  (service.action name).toOption

/-- The action with the arguments of a request, or the fault to report. -/
def accept (a : Action) (body : Text.Utf8.Octets) : Except Soap.Fault Action :=
  match Soap.decodeRequest body with
  | .error _ => .error .invalidAction
  | .ok call => (a.applyRequest call).mapError fun _ => .invalidArgs

/-- The answer once the application has dealt with an action. -/
def actionResponse (r : Responder) : Except Soap.Fault Action → Http.Response
  | .error f => r.faultResponse f
  | .ok a =>
    match a.response with
    | .ok body => r.xmlResponse 200 body
    | .error _ => r.faultResponse .actionFailed

/-- What is to be done about a request. -/
inductive Dispatch where
  | reply (response : Http.Response)
  /-- The application has to deal with the action. -/
  | invoke (a : Action)
  /-- The request is none of the device's. -/
  | foreign
  deriving Repr

/-- What is to be done about a request to invoke an action. -/
def dispatchAction (r : Responder) (hasListener : Bool) (a : Action) (body : Text.Utf8.Octets) :
    Dispatch :=
  if !hasListener then .reply (r.faultResponse .notImplemented)
  else
    match accept a body with
    | .ok a => .invoke a
    | .error f => .reply (r.faultResponse f)

/-- What is to be done about a request, `hasListener` meaning that the application deals with
actions. -/
def dispatch (r : Responder) (hasListener : Bool) (request : Http.Request) : Dispatch :=
  match request.method with
  | "GET" =>
    match r.descriptionAt? request.path with
    | some body => .reply (r.xmlResponse 200 body)
    | none => .foreign
  | "POST" =>
    match r.route? request with
    | some a => r.dispatchAction hasListener a request.body
    | none => .foreign
  | _ => .foreign

/-! ## The application -/

/-- How an application with a state deals with actions. -/
abbrev ActionListener (σ : Type) := Action → σ → Except Soap.Fault Action × σ

/-- How an application deals with requests that are none of the device's. -/
abbrev Hook := Http.Request → Http.Response

/-- Answers a request. -/
def handle {σ : Type} (r : Responder) (listener : Option (ActionListener σ)) (hook : Option Hook)
    (request : Http.Request) (state : σ) : Http.Response × σ :=
  match r.dispatch listener.isSome request, listener with
  | .reply response, _ => (response, state)
  | .invoke a, some f =>
    let (result, state) := f a state
    (r.actionResponse result, state)
  | _, _ =>
    (match hook with
      | some h => h request
      | none => r.statusResponse 400, state)

end Responder

end Upnp
