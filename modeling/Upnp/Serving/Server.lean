import Upnp.Device.Revision
import Upnp.Ssdp.Server

/-
A device that is published: completed, served on the web and answering searches on all interfaces.
It holds either its web server and all its receivers or none of them. Calls give back the sockets
that they close, in the order in which they do.
-/

namespace Upnp

structure DeviceServer where
  device : Device
  /-- The port of the web server, if it is running. -/
  http : Option Nat := none
  /-- The servers that receive searches. -/
  multicast : Option Ssdp.ServerList := none
  /-- The port that the device is served on. -/
  port : Option Nat := none
  deriving Repr

inductive DeviceServerError where
  | ssdp (e : Ssdp.ServerError)
  /-- The web server could not be started. -/
  | http (fault : String)
  /-- The thread of the web server has panicked. -/
  | panicked
  deriving Repr, DecidableEq

def DeviceServerError.message : DeviceServerError → String
  | .ssdp e => e.message
  | .http fault => "HTTP server error: " ++ fault
  | .panicked => "HTTP server thread panicked"

namespace DeviceServer

def isRunning (s : DeviceServer) : Bool :=
  s.http.isSome

/-- What a device server listens on. -/
inductive Listener where
  /-- The socket of the web server, with its port. -/
  | web (port : Nat)
  | ssdp (s : Ssdp.Socket)
  deriving Repr, DecidableEq

/-- Which of the threads have panicked: that of the web server, and those that receive searches. -/
structure Panics where
  http : Bool
  multicast : Ssdp.Panics

/-! ## Stopping -/

/-- Stops the web server on a port, if there is one. -/
def stopWeb (panicked : Bool) : Option Nat → List Listener × Outcome DeviceServerError
  | none => ([], .ok ())
  | some port => ([.web port], if panicked then .error .panicked else .ok ())

/-- Stops the receivers, then the web server, whatever comes of each. -/
def stop (panics : Panics) (s : DeviceServer) :
    DeviceServer × List Listener × Outcome DeviceServerError :=
  let (receivers, received) := Ssdp.ServerList.stopAny panics.multicast s.multicast
  let (web, served) := stopWeb panics.http s.http
  ({ s with http := none, multicast := none, port := none }, receivers.map .ssdp ++ web,
    Outcome.andThen (received.mapError DeviceServerError.ssdp) served)

/-! ## Starting -/

/-- What the system gives: to the web server, and to the receivers of searches. -/
structure Grants where
  http : Net.Grant
  multicast : Ssdp.Binding

/-- Starts anew on interfaces, completing the device with UUIDs from number `i` on, and gives the
number of the next. What cannot be started in full is stopped again, where `undone` says which of
the new threads have panicked by then; but where stopping what was there before comes to an error,
that is all that is done. -/
def start (uuid : Nat → String) (i : Nat) (panics undone : Panics) (grants : Grants)
    (interfaces : List Net.Interface) (s : DeviceServer) :
    DeviceServer × Nat × List Listener × Outcome DeviceServerError :=
  match s.stop panics with
  | (s, closed, .error e) => (s, i, closed, .error e)
  | (s, closed, .ok ()) =>
    let (device, next) := s.device.revise uuid i
    let s := { s with device }
    match grants.http with
    | .noSocket fault => (s, next, closed, .error (.http fault))
    | .noThread port fault => (s, next, closed ++ [.web port], .error (.http fault))
    | .full port =>
      match Ssdp.ServerList.start undone.multicast grants.multicast interfaces {} with
      | (multicast, refused, .error e) =>
        let receivers := (multicast.stop undone.multicast).2.1
        let web := (stopWeb undone.http port).1
        (s, next, closed ++ (refused ++ receivers).map .ssdp ++ web, .error (.ssdp e))
      | (multicast, refused, .ok ()) =>
        ({ s with http := some port, multicast := some multicast, port := some port }, next,
          closed ++ refused.map .ssdp, .ok ())

end DeviceServer

end Upnp
