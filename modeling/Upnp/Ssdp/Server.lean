import Upnp.Outcome
import Upnp.Ssdp.Message

/-
Servers on several interfaces, one on each. An interface on which no server can be started does
not keep the others from starting, but is reported; of several the last one. A search goes out from
every server that it can be sent from. Calls give back the sockets that they close, in the order in
which they do.
-/

namespace Upnp.Ssdp

open Upnp.Text

inductive ServerError where
  /-- No socket could be had on an interface. -/
  | bind (i : Net.Interface) (fault : String)
  /-- A packet could not be sent, or no thread could be had to receive packets. -/
  | io (fault : String)
  /-- No server is running. -/
  | closed
  /-- The thread that received packets has panicked. -/
  | panicked
  deriving Repr, DecidableEq

def ServerError.message : ServerError → String
  | .bind i fault => "failed to bind SSDP socket on " ++ i.label ++ ": " ++ fault
  | .io fault => "SSDP socket I/O error: " ++ fault
  | .closed => "SSDP server is not running"
  | .panicked => "SSDP receive thread panicked"

/-! ## One server -/

/-- A socket on an interface, with the port that the system has given it. -/
structure Socket where
  interface : Net.Interface
  port : Nat
  deriving Repr, DecidableEq

/-- What is sent to all who listen for SSDP, and the socket that it is sent from. -/
structure Sending where
  source : Socket
  octets : Utf8.Octets
  deriving Repr, DecidableEq

/-- A server; it has a socket, and a thread that receives on it, as long as it runs. -/
structure Server where
  socket : Option Socket := none
  deriving Repr, DecidableEq

namespace Server

def isRunning (s : Server) : Bool :=
  s.socket.isSome

def interface? (s : Server) : Option Net.Interface :=
  s.socket.map Socket.interface

/-- Stops a server. Only when its thread is waited for does it show whether it has panicked. -/
def stop (panicked : Bool) (s : Server) : Server × List Socket × Outcome ServerError :=
  match s.socket with
  | none => (s, [], .ok ())
  | some socket =>
    ({ s with socket := none }, [socket], if panicked then .error .panicked else .ok ())

/-- Starts anew on an interface with what the system gives. A socket without a thread is closed
again. -/
def start (panicked : Bool) (grant : Net.Grant) (i : Net.Interface) (s : Server) :
    Server × List Socket × Outcome ServerError :=
  match s.stop panicked with
  | (s, closed, .error e) => (s, closed, .error e)
  | (s, closed, .ok ()) =>
    match grant with
    | .noSocket fault => (s, closed, .error (.bind i fault))
    | .noThread port fault => (s, closed ++ [⟨i, port⟩], .error (.io fault))
    | .full port => ({ s with socket := some ⟨i, port⟩ }, closed, .ok ())

/-- Searches for a target; `fault` is what is wrong with sending, if anything is. -/
def search (fault : Option String) (target : String) (mx : Nat) (s : Server) :
    Option Sending × Outcome ServerError :=
  match s.socket, fault with
  | none, _ => (none, .error .closed)
  | some source, none => (some ⟨source, (Packet.search target mx).toOctets⟩, .ok ())
  | some _, some fault => (none, .error (.io fault))

end Server

/-! ## All servers -/

/-- What the system gives to the server for the interface at a place of a list. -/
abbrev Binding := Nat → Net.Interface → Net.Grant

/-- Whether the thread of the server at a place of a list has panicked. -/
abbrev Panics := Nat → Bool

/-- What is wrong with sending from the server at a place of a list. -/
abbrev Faults := Nat → Option String

/-- The servers that run. -/
structure ServerList where
  servers : List Server := []
  deriving Repr, DecidableEq

namespace ServerList

/-- Stops all servers, whatever comes of each, and lets go of them. -/
def stop (panics : Panics) (l : ServerList) : ServerList × List Socket × Outcome ServerError :=
  let (closed, outcome) := Outcome.each (fun k s => (Server.stop (panics k) s).2) 0 l.servers
  ({}, closed.flatten, outcome)

/-- Starts a server on an interface: the server, if it runs, and the sockets that are closed. -/
def startOn (grant : Net.Grant) (i : Net.Interface) :
    (Option Server × List Socket) × Outcome ServerError :=
  match Server.start false grant i {} with
  | (s, closed, .ok ()) => ((some s, closed), .ok ())
  | (_, closed, .error e) => ((none, closed), .error e)

/-- Stops what is running and starts a server on each interface; those that run are kept. Where
stopping comes to an error, none is started. -/
def start (panics : Panics) (binds : Binding) (interfaces : List Net.Interface) (l : ServerList) :
    ServerList × List Socket × Outcome ServerError :=
  match l.stop panics with
  | (l, closed, .error e) => (l, closed, .error e)
  | (l, closed, .ok ()) =>
    let (parts, outcome) := Outcome.each (fun k i => startOn (binds k i) i) 0 interfaces
    (⟨l.servers ++ parts.filterMap Prod.fst⟩, closed ++ parts.flatMap Prod.snd, outcome)

def size (l : ServerList) : Nat :=
  l.servers.length

/-- Searches for a target from all servers: what is sent, and what came of it. -/
def search (faults : Faults) (target : String) (mx : Nat) (l : ServerList) :
    List Sending × Outcome ServerError :=
  if l.servers.isEmpty then ([], .error .closed)
  else
    let (sent, outcome) := Outcome.each (fun k s => Server.search (faults k) target mx s) 0 l.servers
    (sent.reduceOption, outcome)

/-- Stops servers if there are any. -/
def stopAny (panics : Panics) (l : Option ServerList) : List Socket × Outcome ServerError :=
  match l with
  | none => ([], .ok ())
  | some l => (l.stop panics).2

end ServerList

end Upnp.Ssdp
