import Upnp.Ssdp.Packet

/-
The messages of SSDP as packets: searches, announcements and search responses, with the tests that
tell them apart.
-/

namespace Upnp.Ssdp

open Upnp.Decimal

/-! ## Fixed texts -/

def multicastAddress : String := "239.255.255.250"

def multicastPort : Nat := 1900

/-- The host header of multicast requests. -/
def multicastHost : String :=
  (Net.Endpoint.mk multicastAddress multicastPort).label

/-- A datagram is read up to this many octets. -/
def maxPacketSize : Nat := 8192

def searchMethod : String := "M-SEARCH"

def notifyMethod : String := "NOTIFY"

/-- The extension that a search must name. -/
def discover : String := "\"ssdp:discover\""

/-- The target that stands for every root device. -/
def rootDevice : String := "upnp:rootdevice"

/-- The target that stands for everything. -/
def allTargets : String := "ssdp:all"

def alive : String := "ssdp:alive"

def byebye : String := "ssdp:byebye"

def update : String := "ssdp:update"

namespace Packet

/-! ## Requests -/

/-- A search for a target, answered within `mx` seconds. -/
def search (target : String) (mx : Int) : Packet :=
  ((((Packet.setMethod {} searchMethod).set .host multicastHost).set .man discover).set .st target)
    |>.setInt .mx mx

def isSearch (p : Packet) : Bool :=
  p.hasMethod searchMethod

def isNotify (p : Packet) : Bool :=
  p.hasMethod notifyMethod

def isDiscover (p : Packet) : Bool :=
  p.has .man discover

/-- A search for every root device. -/
def isRootSearch (p : Packet) : Bool :=
  p.has .st rootDevice

/-- An announcement of a root device. -/
def isRootNotify (p : Packet) : Bool :=
  p.has .nt rootDevice

def isAlive (p : Packet) : Bool :=
  p.has .nts alive

def isByebye (p : Packet) : Bool :=
  p.has .nts byebye

def isUpdate (p : Packet) : Bool :=
  p.has .nts update

/-! ## Responses -/

/-- The words for a status code, where they are known. -/
def reason : Nat → String
  | 200 => "OK"
  | 400 => "Bad Request"
  | 404 => "Not Found"
  | 500 => "Internal Server Error"
  | _ => ""

/-- Makes the packet a response with this status. -/
def setStatus (p : Packet) (code : Nat) : Packet :=
  p.setFirstLine [httpVersion, showInt code, reason code]

/-- A successful response of a server, sent at `date`. -/
def response (server date : String) : Packet :=
  (((Packet.setStatus {} 200).set .server server).set .ext "").set .date date

/-- The status code, zero where it is none. -/
def status (p : Packet) : Nat :=
  ((p.firstLine[1]? >>= readInt? .unsigned16).map Int.toNat).getD 0

def isOk (p : Packet) : Bool :=
  p.status == 200

end Packet

end Upnp.Ssdp
