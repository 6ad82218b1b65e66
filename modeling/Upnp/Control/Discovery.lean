import Upnp.Device.Description
import Upnp.Device.Loading
import Upnp.Device.Registry
import Upnp.Ssdp.Message

/-
Discovery: devices that announce themselves or answer a search are fetched and registered. A call
that registers a device goes through steps, of which only the looking up and the adding touch the
registry; between them other calls may have their steps.
-/

namespace Upnp

/-- How far a call that registers the device at a location has got. -/
inductive Registration where
  | started (location : String)
  /-- The description is there. -/
  | fetched (d : Device)
  /-- No device of the same identity was registered. -/
  | unregistered (d : Device)
  /-- The descriptions of all services are there. -/
  | loaded (d : Device)
  /-- The call has ended; `true` means that the device was added. -/
  | ended (result : Except DescriptionError Bool)
  deriving Repr

namespace Registration

/-- One step of a call. Of its networks, number 0 answers for the description of the device and
number `i + 1` for that of the service at place `i`. -/
def step (network : Nat → Http.Network) (r : Registry) : Registration → Registration × Registry
  | .started location =>
    match Device.fetch (network 0) location with
    | .ok d => (.fetched d, r)
    | .error e => (.ended (.error e), r)
  | .fetched d => if r.contains d then (.ended (.ok false), r) else (.unregistered d, r)
  | .unregistered d =>
    match d.loadError? fun i => network (i + 1) with
    | some e => (.ended (.error e), r)
    | none => (.loaded (d.loadServices fun i => network (i + 1)), r)
  | .loaded d => (.ended (.ok (r.accepts d)), r.add d)
  | .ended result => (.ended result, r)

/-- The number of steps of a call. -/
def steps : Nat := 4

/-- Several steps of one call with none of another call between them. -/
def stepTimes (network : Nat → Http.Network) : Nat → Registration → Registry →
    Registration × Registry
  | 0, c, r => (c, r)
  | n + 1, c, r =>
    let (c, r) := c.step network r
    stepTimes network n c r

/-- What a call that has ended comes to. -/
def result? : Registration → Option (Except DescriptionError Bool)
  | .ended result => some result
  | _ => none

end Registration

namespace Registry

/-- Fetches the device at a location with the descriptions of its services, and adds it; the
result says whether it was added. -/
def register (network : Nat → Http.Network) (location : String) (r : Registry) :
    Except DescriptionError Bool × Registry :=
  let (call, r) := (Registration.started location).stepTimes network Registration.steps r
  (call.result?.getD (.ok false), r)

end Registry

/-- A packet that reaches the discovery, by the way it comes. -/
inductive DiscoveryEvent where
  | notify (p : Ssdp.Packet)
  | search (p : Ssdp.Packet)
  | response (p : Ssdp.Packet)
  deriving Repr, DecidableEq

/-- Where the device of an event is described, if the event makes it known. -/
def DiscoveryEvent.location? : DiscoveryEvent → Option String
  | .notify p => if p.isRootNotify && !p.isByebye then p.get? .location else none
  | .search _ => none
  | .response p => p.get? .location

/-- The registered devices, and whether somebody listens to the events. -/
structure Discovery where
  registry : Registry := {}
  hasListener : Bool := false
  deriving Repr

namespace Discovery

/-- Handles an event: registers the device that it makes known, whatever comes of that, and gives
the events that reach the listener. -/
def handle (network : Nat → Http.Network) (d : Discovery) (e : DiscoveryEvent) :
    Discovery × List DiscoveryEvent :=
  let registry := match e.location? with
    | some location => (d.registry.register network location).2
    | none => d.registry
  ({ d with registry }, if d.hasListener then [e] else [])

/-- Handles events one after the other, each with networks of its own. -/
def run (d : Discovery) : List (DiscoveryEvent × (Nat → Http.Network)) →
    Discovery × List DiscoveryEvent
  | [] => (d, [])
  | (e, network) :: rest =>
    let (d, heard) := d.handle network e
    let (d, more) := d.run rest
    (d, heard ++ more)

end Discovery

end Upnp
