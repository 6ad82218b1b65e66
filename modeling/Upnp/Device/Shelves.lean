import Std.Data.HashMap
import Upnp.Device.Basic

/-
Known devices kept by their types. Each type has a shelf of its own, made when the first device of
the type comes, and on a shelf each device has a place of its own by its unique name. Shelves have
no order.
-/

namespace Upnp

/-- Devices by type and, within a type, by unique name. -/
structure Shelves where
  byType : Std.HashMap String (Std.HashMap String Device) := {}

namespace Shelves

/-- The shelf of a type, empty if there is none. -/
def shelf (s : Shelves) (deviceType : String) : Std.HashMap String Device :=
  s.byType.getD deviceType {}

/-- Adds a device, if its identity is complete and its place is free. The shelf of its type is there
afterwards. -/
def add (s : Shelves) (d : Device) : Bool × Shelves :=
  if d.node.deviceType = "" ∨ d.node.udn = "" then (false, s)
  else
    let shelf := s.shelf d.node.deviceType
    if shelf.contains d.node.udn then (false, ⟨s.byType.insert d.node.deviceType shelf⟩)
    else (true, ⟨s.byType.insert d.node.deviceType (shelf.insert d.node.udn d)⟩)

def find? (s : Shelves) (deviceType udn : String) : Option Device :=
  s.byType[deviceType]?.bind (·[udn]?)

def has (s : Shelves) (deviceType udn : String) : Bool :=
  s.byType[deviceType]?.any (·.contains udn)

/-- Whether a device of the same identity is known. -/
def contains (s : Shelves) (d : Device) : Bool :=
  s.has d.node.deviceType d.node.udn

/-- All devices on a shelf. -/
def row (shelf : Std.HashMap String Device) : List Device :=
  shelf.toList.map Prod.snd

def devices (s : Shelves) : List Device :=
  s.byType.toList.flatMap fun entry => row entry.2

def ofType (s : Shelves) (deviceType : String) : List Device :=
  (s.byType[deviceType]?.map row).getD []

def size (s : Shelves) : Nat :=
  s.byType.fold (fun n _ shelf => n + shelf.size) 0

end Shelves

end Upnp
