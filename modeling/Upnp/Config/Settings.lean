import Upnp.Config.Basic

/-
The settings of the engine as it uses them: the numbers of a configuration brought into the ranges
of their uses, and the windows from which ports are drawn.
-/

namespace Upnp

/-- A window of ports from which one is drawn where none is asked for. -/
structure PortRange where
  base : Nat
  size : Nat
  deriving Repr, DecidableEq

namespace PortRange

def highestPort : Nat := 65535

/-- The port that a draw below the size gives; a window without size has its base only. -/
def pick (r : PortRange) (draw : Nat) : Nat :=
  if r.size = 0 then r.base else min highestPort (r.base + draw % r.size)

/-- The highest port of the window. -/
def last (r : PortRange) : Nat :=
  min highestPort (r.base + (r.size - 1))

/-- Whether a port lies in the window. -/
def contains (r : PortRange) (port : Nat) : Bool :=
  r.base ≤ port && port ≤ r.last

end PortRange

structure Settings where
  /-- The seconds within which a search is answered. -/
  searchMx : Nat
  multicastTtl : Nat
  readTimeoutMs : Nat
  controlPointPorts : PortRange
  devicePorts : PortRange
  httpTimeoutSecs : Nat
  productName : String
  productVersion : String
  deriving Repr, DecidableEq

namespace Settings

def clamp16 (n : Nat) : Nat := min n 65535

def clamp32 (n : Nat) : Nat := min n 4294967295

/-- The settings of a configuration; sockets wait for a millisecond at least. -/
def ofConfig (c : Config) : Settings where
  searchMx := clamp32 (c.number .searchMx)
  multicastTtl := clamp32 (c.number .multicastTtl)
  readTimeoutMs := max (c.number .readTimeoutMs) 1
  controlPointPorts :=
    ⟨clamp16 (c.number .controlPointPortBase), clamp16 (c.number .controlPointPortRange)⟩
  devicePorts := ⟨clamp16 (c.number .devicePortBase), clamp16 (c.number .devicePortRange)⟩
  httpTimeoutSecs := c.number .httpTimeoutSecs
  productName := c.text .productName
  productVersion := c.text .productVersion

/-- The settings of the default configuration. -/
def standard : Settings := ofConfig { tree := Config.standardTree }

/-- How the engine names itself on a system. -/
def userAgent (s : Settings) (system : String) : String :=
  s!"{system} UPnP/1.1 {s.productName}/{s.productVersion}"

end Settings

end Upnp
