import Upnp.Device.Basic
import Upnp.Ssdp.Packet
import Upnp.Xml.Writer

/-
The description of a device: reading it, which gives the tree of devices with the addresses of the
services' own descriptions, and writing it.
-/

namespace Upnp

open Upnp.Xml

/-! ## Parts -/

def Icon.ofElement (e : Element) : Icon :=
  ⟨e.childText "mimetype", e.childText "width", e.childText "height", e.childText "depth",
    e.childText "url"⟩

def Icon.toElement (i : Icon) : Element :=
  .ofElements "icon" [
    .ofText "mimetype" i.mimetype,
    .ofText "width" i.width,
    .ofText "height" i.height,
    .ofText "depth" i.depth,
    .ofText "url" i.url]

def DeviceInfo.ofElement (e : Element) : DeviceInfo :=
  { friendlyName := e.childText "friendlyName"
    manufacturer := e.childText "manufacturer"
    manufacturerUrl := e.childText "manufacturerURL"
    modelDescription := e.childText "modelDescription"
    modelName := e.childText "modelName"
    modelNumber := e.childText "modelNumber"
    modelUrl := e.childText "modelURL"
    serialNumber := e.childText "serialNumber"
    upc := e.childText "UPC"
    presentationUrl := e.childText "presentationURL" }

def DeviceNode.ofElement (e : Element) : DeviceNode :=
  { deviceType := e.childText "deviceType"
    udn := e.childText "UDN"
    info := .ofElement e
    icons := (e.listed "iconList" "icon").map Icon.ofElement
    services := (e.listed "serviceList" "service").map Service.ofEntry }

/-- The children that describe a device by itself, in front of the devices embedded in it. -/
def DeviceNode.toElements (n : DeviceNode) : List Element :=
  let info := n.info
  [.ofText "deviceType" n.deviceType,
    .ofText "friendlyName" info.friendlyName,
    .ofText "manufacturer" info.manufacturer] ++
  Element.optionalText "manufacturerURL" info.manufacturerUrl ++
  Element.optionalText "modelDescription" info.modelDescription ++
  [.ofText "modelName" info.modelName] ++
  Element.optionalText "modelNumber" info.modelNumber ++
  Element.optionalText "modelURL" info.modelUrl ++
  Element.optionalText "serialNumber" info.serialNumber ++
  [.ofText "UDN" n.udn] ++
  Element.optionalText "UPC" info.upc ++
  Element.listOf "iconList" (n.icons.map Icon.toElement) ++
  Element.listOf "serviceList" (n.services.map Service.toEntry)

namespace Device

/-! ## Reading -/

/-- The tree of devices that an element describes, not linked yet. -/
def ofElement (e : Element) : Device :=
  ⟨.ofElement e, (e.listed "deviceList" "device").attach.map fun ⟨x, _⟩ => ofElement x⟩
termination_by sizeOf e
decreasing_by exact Element.sizeOf_lt_of_mem_listed ‹_›

/-- The device that the root of a description describes. -/
def ofRoot (root : Element) : Except DescriptionError Device :=
  match root.child? "device" with
  | none => .error (.missingElement "device")
  | some e =>
    .ok ((ofElement e).modify fun n =>
      { n with version := .ofRoot root, urlBase := root.childText "URLBase" }).relink

/-- Reads the text of a description. -/
def ofDescription (text : String) : Except DescriptionError Device :=
  (readDocument "root" text).bind ofRoot

/-! ## Writing -/

/-- The namespace of device descriptions. -/
def xmlNamespace : String := "urn:schemas-upnp-org:device-1-0"

mutual

def toElement : Device → Element
  | ⟨n, ds⟩ =>
    .ofElements "device" (n.toElements ++ Element.listOf "deviceList" (elementsOfAll ds) ++
      Element.optionalText "presentationURL" n.info.presentationUrl)

def elementsOfAll : List Device → List Element
  | [] => []
  | d :: ds => d.toElement :: elementsOfAll ds

end

/-- The root of the description. -/
def toRoot (d : Device) : Element :=
  let e := Element.ofElements "root"
    (d.node.version.toElement :: Element.optionalText "URLBase" d.node.urlBase ++ [d.toElement])
  { e with attributes := [("xmlns", xmlNamespace)] }

/-- The text of the description. -/
def description (d : Device) : String :=
  write d.toRoot

/-! ## Fetching -/

/-- The device of the description found at a URL, from what came of asking for it. -/
def ofFetched (url : String) (document : Http.Fetched) : Except DescriptionError Device :=
  match document with
  | .error e => .error (.http e)
  | .ok text => (ofDescription text).map (·.setLocationUrl url)

/-- Fetches the description of a device. -/
def fetch (network : Http.Network) (url : String) : Except DescriptionError Device :=
  ofFetched url (network url)

/-- Fetches the description of the device that a packet announces. -/
def ofPacket (network : Http.Network) (p : Ssdp.Packet) : Except DescriptionError Device :=
  match p.get? .location with
  | some location => fetch network location
  | none => .error .missingLocation

end Device

end Upnp
