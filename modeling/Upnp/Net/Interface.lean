import Upnp.Decimal.Integer
import Upnp.Text.Split

/-
Network interfaces and the choice of the one nearest to a peer. Nearness is the number of leading
blocks that two dotted addresses share; addresses of different block counts are incomparable, and
of several nearest interfaces the first is taken.
-/

namespace Upnp.Net

/-- A network interface and its IPv4 address. -/
structure Interface where
  name : String
  address : String
  deriving Repr, DecidableEq

/-- The interface as it is shown in messages. -/
def Interface.label (i : Interface) : String :=
  i.name ++ " (" ++ i.address ++ ")"

/-- The loopback interface. -/
def Interface.loopback : Interface :=
  ⟨"lo", "127.0.0.1"⟩

/-- What the system gives to one who wants to listen: no socket, a socket with its port but no
thread to serve it, or both. -/
inductive Grant where
  | noSocket (fault : String)
  | noThread (port : Nat) (fault : String)
  | full (port : Nat)
  deriving Repr, DecidableEq

/-- The address and port that a datagram came from. -/
structure Endpoint where
  address : String
  port : Nat
  deriving Repr, DecidableEq

def Endpoint.label (e : Endpoint) : String :=
  e.address ++ ":" ++ String.ofList (Nat.toDigits 10 e.port)

/-- The endpoint of a label; a port that is none of 16 bits is zero. -/
def Endpoint.ofLabel (label : String) : Endpoint :=
  match Text.splitTextLast? ':' label with
  | some (address, port) => ⟨address, ((Decimal.readInt? .unsigned16 port).getD 0).toNat⟩
  | none => ⟨label, 0⟩

/-- An address is taken for IPv6 when a colon stands in it, but not at its front. -/
def isIpv6 (address : String) : Bool :=
  match Text.splitTextOnce? ":" address with
  | some (before, _) => before != ""
  | none => false

/-! ## Nearness -/

/-- The number of leading elements that two lists share. -/
def commonLength {α : Type} [BEq α] : List α → List α → Nat
  | x :: xs, y :: ys => if x == y then commonLength xs ys + 1 else 0
  | _, _ => 0

/-- The number of leading blocks that two dotted addresses of equal block count share. -/
def sharedBlocks? (here target : String) : Option Nat :=
  let xs := Text.splitText "." here
  let ys := Text.splitText "." target
  if xs.length = ys.length then some (commonLength xs ys) else none

/-- The nearness of an interface to a peer; incomparable addresses come last. -/
def Interface.nearness (peer : String) (i : Interface) : Int :=
  match sharedBlocks? i.address peer with
  | some n => n
  | none => -1

/-- The first of the nearest interfaces, `best` standing before the others. -/
def nearestOf (peer : String) (best : Interface) : List Interface → Interface
  | [] => best
  | i :: rest =>
    if i.nearness peer > best.nearness peer then nearestOf peer i rest else nearestOf peer best rest

/-- No interface is there to choose from. -/
inductive InterfaceError where
  | noneAvailable
  deriving Repr, DecidableEq

def InterfaceError.message : InterfaceError → String
  | .noneAvailable => "available interface not found"

/-- The first of the interfaces nearest to a peer. -/
def nearest (interfaces : List Interface) (peer : String) : Except InterfaceError Interface :=
  match interfaces with
  | [] => .error .noneAvailable
  | first :: rest => .ok (nearestOf peer first rest)

end Upnp.Net
