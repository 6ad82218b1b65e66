import Upnp.Ssdp.Message

/-
Receiving packets from a socket. Each turn of the loop waits for a datagram; what is no packet,
what comes to nothing and what fails is passed over, and the loop ends when it sees that the
socket is to be closed.
-/

namespace Upnp.Ssdp

open Upnp.Text

/-- What waiting for a datagram came to. -/
inductive Reception where
  | datagram (octets : Utf8.Octets) (sender : Net.Endpoint)
  /-- Nothing has arrived in time. -/
  | idle
  | failure
  deriving Repr, DecidableEq

/-- A turn of the loop: what is received, and whether the socket is to be closed before and after
that. -/
structure Turn where
  reception : Reception
  closedBefore : Bool := false
  closedAfter : Bool := false
  deriving Repr, DecidableEq

/-- The packet of a datagram, with its sender and the interface it came in on; only the first
octets count. -/
def receivedPacket? (interface : Net.Interface) (octets : Utf8.Octets) (sender : Net.Endpoint) :
    Option Packet :=
  (Packet.parse (octets.take maxPacketSize)).toOption.map fun p =>
    { p with sender := some sender, interface := some interface }

/-- The packets that a run of the loop delivers. -/
def deliveries (interface : Net.Interface) : List Turn → List Packet
  | [] => []
  | t :: ts =>
    if t.closedBefore then []
    else
      match t.reception with
      | .idle => deliveries interface ts
      | .failure => if t.closedAfter then [] else deliveries interface ts
      | .datagram octets sender =>
        if t.closedAfter then []
        else (receivedPacket? interface octets sender).toList ++ deliveries interface ts

end Upnp.Ssdp
