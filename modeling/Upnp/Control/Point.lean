import Upnp.Control.Discovery
import Upnp.Ssdp.Server

/-
A control point: it listens to announcements on all interfaces, sends searches from all of them,
and keeps the devices that it gets to know. It holds either all its servers or none. Calls give
back the sockets that they close, in the order in which they do.
-/

namespace Upnp

structure ControlPoint where
  searchMx : Nat := 3
  /-- The port of the latest successful start. -/
  port : Option Nat := none
  discovery : Discovery := {}
  /-- The servers that receive announcements. -/
  multicast : Option Ssdp.ServerList := none
  /-- The servers that send searches and receive the answers. -/
  unicast : Option Ssdp.ServerList := none
  deriving Repr

inductive ControlPointError where
  | ssdp (e : Ssdp.ServerError)
  | notStarted
  deriving Repr, DecidableEq

def ControlPointError.message : ControlPointError → String
  | .ssdp e => e.message
  | .notStarted => "control point is not started"

namespace ControlPoint

def isRunning (c : ControlPoint) : Bool :=
  c.unicast.isSome

/-- Which of the threads have panicked: those that receive announcements, and those that receive
answers. -/
structure Panics where
  multicast : Ssdp.Panics
  unicast : Ssdp.Panics

/-- Stops all servers, whatever comes of each. -/
def stop (panics : Panics) (c : ControlPoint) :
    ControlPoint × List Ssdp.Socket × Outcome ControlPointError :=
  let (receivers, received) := Ssdp.ServerList.stopAny panics.multicast c.multicast
  let (searchers, searched) := Ssdp.ServerList.stopAny panics.unicast c.unicast
  ({ c with multicast := none, unicast := none }, receivers ++ searchers,
    (received.andThen searched).mapError .ssdp)

/-- What the system gives: to the receivers of announcements, and to the searchers on a port. -/
structure Grants where
  multicast : Ssdp.Binding
  unicast : Nat → Ssdp.Binding

/-- Starts anew on interfaces and a port. What cannot be started in full is stopped again, where
`undone` says which of the new threads have panicked by then; but where stopping what was there
before comes to an error, that is all that is done. -/
def start (panics undone : Panics) (grants : Grants) (interfaces : List Net.Interface) (port : Nat)
    (c : ControlPoint) : ControlPoint × List Ssdp.Socket × Outcome ControlPointError :=
  match c.stop panics with
  | (c, closed, .error e) => (c, closed, .error e)
  | (c, closed, .ok ()) =>
    match Ssdp.ServerList.start undone.multicast grants.multicast interfaces {} with
    | (multicast, refused, .error e) =>
      (c, closed ++ refused ++ (multicast.stop undone.multicast).2.1, .error (.ssdp e))
    | (multicast, refused, .ok ()) =>
      let closed := closed ++ refused
      match Ssdp.ServerList.start undone.unicast (grants.unicast port) interfaces {} with
      | (unicast, refused, .error e) =>
        let searchers := (unicast.stop undone.unicast).2.1
        let receivers := (multicast.stop undone.multicast).2.1
        (c, closed ++ refused ++ searchers ++ receivers, .error (.ssdp e))
      | (unicast, refused, .ok ()) =>
        ({ c with multicast := some multicast, unicast := some unicast, port := some port },
          closed ++ refused, .ok ())

/-- Searches for a target from all interfaces; `faults` says what is wrong with sending. -/
def search (faults : Ssdp.Faults) (target : String) (c : ControlPoint) :
    Except ControlPointError Unit :=
  match c.unicast with
  | none => .error .notStarted
  | some l => (l.search faults target c.searchMx).2.mapError .ssdp

/-- Registers the device described at a location. -/
def addDevice (network : Nat → Http.Network) (location : String) (c : ControlPoint) :
    Except DescriptionError Bool × ControlPoint :=
  let (result, registry) := c.discovery.registry.register network location
  (result, { c with discovery := { c.discovery with registry } })

end ControlPoint

end Upnp
