import Upnp.Service.Description

/-
Devices as trees: what a device is by itself, with its services, and the devices embedded in it.
Services and embedded devices carry what they know about the device they belong to, and every
change of that is passed on to all of them.
-/

namespace Upnp

/-- An image that stands for a device. -/
structure Icon where
  mimetype : String := ""
  width : String := ""
  height : String := ""
  depth : String := ""
  url : String := ""
  deriving Repr, DecidableEq

/-- What a device says about itself to people. -/
structure DeviceInfo where
  friendlyName : String := ""
  manufacturer : String := ""
  manufacturerUrl : String := ""
  modelDescription : String := ""
  modelName : String := ""
  modelNumber : String := ""
  modelUrl : String := ""
  serialNumber : String := ""
  upc : String := ""
  presentationUrl : String := ""
  deriving Repr, DecidableEq

/-- A device by itself, apart from the devices embedded in it. -/
structure DeviceNode where
  deviceType : String := ""
  udn : String := ""
  info : DeviceInfo := {}
  icons : List Icon := []
  services : List Service := []
  version : SpecVersion := {}
  urlBase : String := ""
  locationUrl : String := ""
  descriptionUrl : String := ""
  parent : Option DeviceLink := none
  deriving Repr, DecidableEq

namespace DeviceNode

/-- What the parts of the device know about it; the addresses are the parent's, if there is one. -/
def link (n : DeviceNode) : DeviceLink :=
  { deviceType := n.deviceType
    udn := n.udn
    parentUdn := n.parent.map DeviceLink.udn
    urlBase := (n.parent.map DeviceLink.urlBase).getD n.urlBase
    locationUrl := (n.parent.map DeviceLink.locationUrl).getD n.locationUrl }

/-- Tells the services what they have to know about the device. -/
def relink (n : DeviceNode) : DeviceNode :=
  { n with services := n.services.map (Service.attach n.link) }

end DeviceNode

/-- A device with the devices embedded in it. -/
structure Device where
  node : DeviceNode
  embedded : List Device := []
  deriving Repr

instance : Inhabited Device := ⟨{ node := {} }⟩

namespace Device

mutual

/-- Devices are compared by themselves and then in what is embedded in them. -/
def decEq : (d e : Device) → Decidable (d = e)
  | ⟨n, ds⟩, ⟨m, es⟩ =>
    match (inferInstance : Decidable (n = m)), decEqAll ds es with
    | isTrue hn, isTrue hs => isTrue (by rw [hn, hs])
    | isFalse hn, _ => isFalse fun h => hn (congrArg Device.node h)
    | _, isFalse hs => isFalse fun h => hs (congrArg Device.embedded h)

def decEqAll : (ds es : List Device) → Decidable (ds = es)
  | [], [] => isTrue rfl
  | d :: ds, e :: es =>
    match decEq d e, decEqAll ds es with
    | isTrue hd, isTrue hs => isTrue (by rw [hd, hs])
    | isFalse hd, _ => isFalse fun h => hd (List.cons.inj h).1
    | _, isFalse hs => isFalse fun h => hs (List.cons.inj h).2
  | [], _ :: _ => isFalse nofun
  | _ :: _, [] => isFalse nofun

end

instance : DecidableEq Device := decEq

/-- A device of a type and name. -/
def named (deviceType friendlyName : String) : Device :=
  { node := { deviceType, info := { friendlyName } } }

def link (d : Device) : DeviceLink :=
  d.node.link

/-- Whether the device is embedded in no other. -/
def isRoot (d : Device) : Bool :=
  d.node.parent.isNone

/-! ## Passing links on -/

mutual

/-- Makes a device one that is embedded in another. -/
def attach (parent : DeviceLink) : Device → Device
  | ⟨n, ds⟩ =>
    let n := { n with parent := some parent }
    ⟨n.relink, attachAll n.link ds⟩

def attachAll (parent : DeviceLink) : List Device → List Device
  | [] => []
  | d :: ds => d.attach parent :: attachAll parent ds

end

/-- Tells all parts what they have to know about the device. -/
def relink (d : Device) : Device :=
  ⟨d.node.relink, attachAll d.node.link d.embedded⟩

/-! ## Changes -/

/-- Changes the device by itself. -/
def modify (d : Device) (f : DeviceNode → DeviceNode) : Device :=
  { d with node := f d.node }

def setDeviceType (d : Device) (deviceType : String) : Device :=
  (d.modify ({ · with deviceType })).relink

def setUdn (d : Device) (udn : String) : Device :=
  (d.modify ({ · with udn })).relink

/-- The unique name of a device from a UUID. -/
def udnOfUuid (uuid : String) : String :=
  "uuid:" ++ uuid

def setUuid (d : Device) (uuid : String) : Device :=
  d.setUdn (udnOfUuid uuid)

def setUrlBase (d : Device) (urlBase : String) : Device :=
  (d.modify ({ · with urlBase })).relink

def setLocationUrl (d : Device) (locationUrl : String) : Device :=
  (d.modify ({ · with locationUrl })).relink

def setDescriptionUrl (d : Device) (descriptionUrl : String) : Device :=
  d.modify ({ · with descriptionUrl })

def setVersion (d : Device) (version : SpecVersion) : Device :=
  d.modify ({ · with version })

def setInfo (d : Device) (info : DeviceInfo) : Device :=
  d.modify ({ · with info })

def addIcon (d : Device) (icon : Icon) : Device :=
  d.modify fun n => { n with icons := n.icons ++ [icon] }

def addService (d : Device) (s : Service) : Device :=
  d.modify fun n => { n with services := n.services ++ [s.attach n.link] }

/-- Changes the service at a position. -/
def modifyService (d : Device) (i : Nat) (f : Service → Service) : Device :=
  d.modify fun n => { n with services := n.services.modify i f }

def addEmbedded (d e : Device) : Device :=
  { d with embedded := d.embedded ++ [e.attach d.link] }

/-! ## All services -/

mutual

/-- The services of a device and of all devices embedded in it, its own first. -/
def allServices : Device → List Service
  | ⟨n, ds⟩ => n.services ++ servicesOfAll ds

def servicesOfAll : List Device → List Service
  | [] => []
  | d :: ds => d.allServices ++ servicesOfAll ds

end

mutual

/-- Changes all services, each with its place in the order of `allServices`, `i` being the first. -/
def mapServices (f : Nat → Service → Service) (i : Nat) : Device → Device
  | ⟨n, ds⟩ =>
    ⟨{ n with services := n.services.mapIdx fun k s => f (i + k) s },
      mapServicesOfAll f (i + n.services.length) ds⟩

def mapServicesOfAll (f : Nat → Service → Service) (i : Nat) : List Device → List Device
  | [] => []
  | d :: ds => d.mapServices f i :: mapServicesOfAll f (i + d.allServices.length) ds

end

end Device

end Upnp
