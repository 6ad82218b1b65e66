import Upnp.Device.Basic
import Upnp.Outcome

/-
Fetching the descriptions of all services of a device. Each service is tried whatever became of
the others, those of the device before those of the devices embedded in it; one whose description
cannot be had stays as it is. `loadDescriptions` goes from one to the next; `loadServices` and
`loadError?` say at once what comes of that.
-/

namespace Upnp

namespace Service

/-- The service after an attempt to fetch its description. -/
def tried (network : Http.Network) (s : Service) : Service :=
  match s.fetch network with
  | .ok loaded => loaded
  | .error _ => s

/-- What went wrong in an attempt to fetch the description. -/
def failure? (network : Http.Network) (s : Service) : Option DescriptionError :=
  match s.fetch network with
  | .ok _ => none
  | .error e => some e

/-- An attempt to fetch the description: the service after it, and what came of it. -/
def attempt (network : Http.Network) (s : Service) : Service × Outcome DescriptionError :=
  match s.fetch network with
  | .ok loaded => (loaded, .ok ())
  | .error e => (s, .error e)

/-- Attempts for one service after the other, over networks from number `i` on, with the number of
the next. -/
def attemptEach (network : Nat → Http.Network) (i : Nat) :
    List Service → List Service × Nat × Outcome DescriptionError
  | [] => ([], i, .ok ())
  | s :: rest =>
    let (s, outcome) := s.attempt (network i)
    let (rest, next, last) := attemptEach network (i + 1) rest
    (s :: rest, next, outcome.andThen last)

end Service

namespace Device

mutual

/-- Attempts for all services of a device, over networks from number `i` on, with the number of the
next. -/
def attemptAll (network : Nat → Http.Network) (i : Nat) :
    Device → Device × Nat × Outcome DescriptionError
  | ⟨n, ds⟩ =>
    let (services, j, own) := Service.attemptEach network i n.services
    let (ds, next, last) := attemptAllOf network j ds
    (⟨{ n with services }, ds⟩, next, own.andThen last)

def attemptAllOf (network : Nat → Http.Network) (i : Nat) :
    List Device → List Device × Nat × Outcome DescriptionError
  | [] => ([], i, .ok ())
  | d :: rest =>
    let (d, j, outcome) := d.attemptAll network i
    let (rest, next, last) := attemptAllOf network j rest
    (d :: rest, next, outcome.andThen last)

end

/-- Fetches the descriptions of all services: the device after that, and what came of it. -/
def loadDescriptions (network : Nat → Http.Network) (d : Device) :
    Device × Outcome DescriptionError :=
  let (loaded, _, outcome) := d.attemptAll network 0
  (loaded, outcome)

/-- The device after its services were tried, the one at place `i` of `allServices` over
`network i`. -/
def loadServices (network : Nat → Http.Network) (d : Device) : Device :=
  d.mapServices (fun i s => s.tried (network i)) 0

/-- What went wrong, in the order of `allServices`. -/
def loadFailures (network : Nat → Http.Network) (d : Device) : List DescriptionError :=
  d.allServices.zipIdx.filterMap fun (s, i) => s.failure? (network i)

/-- What is reported: the last failure. -/
def loadError? (network : Nat → Http.Network) (d : Device) : Option DescriptionError :=
  (d.loadFailures network).getLast?

end Device

end Upnp
