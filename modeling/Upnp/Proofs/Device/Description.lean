import Upnp.Proofs.Description.Root
import Upnp.Proofs.Device.Entries

/-
Descriptions of devices are read back. What a description keeps of a tree of devices are the version
and base of its root and, of each device, type, unique name, what it says to people, its icons and
the entries of its services; the tree that is read has all of it again, in the same places.
-/

namespace Upnp

open Upnp.Xml

/-! ## Parts -/

namespace Icon

def texts (i : Icon) : List String :=
  [i.mimetype, i.width, i.height, i.depth, i.url]

theorem toElement_eq (i : Icon) :
    i.toElement = .ofFields "icon" ["mimetype", "width", "height", "depth", "url"] i.texts :=
  rfl

variable {i : Icon}

theorem legible_toElement (h : ∀ t ∈ i.texts, IsPlainText t) : Legible i.toElement.toNode := by
  rw [toElement_eq]
  exact Element.legible_ofFields (by decide) (by decide) h

theorem ofElement_toElement (h : ∀ t ∈ i.texts, IsPlainText t) : ofElement i.toElement = i := by
  have hnames : ["mimetype", "width", "height", "depth", "url"].Nodup := by decide
  have htexts := Element.map_childText_ofFields "icon" hnames h rfl
  rw [← toElement_eq] at htexts
  simp only [List.map_cons, texts, List.cons.injEq] at htexts
  obtain ⟨hmimetype, hwidth, hheight, hdepth, hurl, -⟩ := htexts
  unfold ofElement
  rw [hmimetype, hwidth, hheight, hdepth, hurl]

end Icon

namespace Service

/-- The service as the description of its device lists it. -/
def listed (s : Service) : Service :=
  { serviceType := s.serviceType, serviceId := s.serviceId, scpdUrl := s.scpdUrl, controlUrl := s.controlUrl,
    eventSubUrl := s.eventSubUrl }

def entryTexts (s : Service) : List String :=
  [s.serviceType, s.serviceId, s.scpdUrl, s.controlUrl, s.eventSubUrl]

theorem toEntry_eq (s : Service) : s.toEntry =
    .ofFields "service" ["serviceType", "serviceId", "SCPDURL", "controlURL", "eventSubURL"] s.entryTexts :=
  rfl

variable {s : Service}

theorem legible_toEntry (h : ∀ t ∈ s.entryTexts, IsPlainText t) : Legible s.toEntry.toNode := by
  rw [toEntry_eq]
  exact Element.legible_ofFields (by decide) (by decide) h

theorem ofEntry_toEntry (h : ∀ t ∈ s.entryTexts, IsPlainText t) : ofEntry s.toEntry = s.listed := by
  have hnames : ["serviceType", "serviceId", "SCPDURL", "controlURL", "eventSubURL"].Nodup := by decide
  have htexts := Element.map_childText_ofFields "service" hnames h rfl
  rw [← toEntry_eq] at htexts
  simp only [List.map_cons, entryTexts, List.cons.injEq] at htexts
  obtain ⟨htype, hid, hscpd, hcontrol, hevent, -⟩ := htexts
  unfold ofEntry listed
  rw [htype, hid, hscpd, hcontrol, hevent]

end Service

def DeviceInfo.texts (i : DeviceInfo) : List String :=
  [i.friendlyName, i.manufacturer, i.manufacturerUrl, i.modelDescription, i.modelName, i.modelNumber, i.modelUrl,
    i.serialNumber, i.upc, i.presentationUrl]

/-! ## Devices by themselves -/

namespace DeviceNode

/-- All texts that the description of the device shows, the base aside. -/
def texts (n : DeviceNode) : List String :=
  [n.deviceType, n.udn] ++ n.info.texts ++ n.icons.flatMap Icon.texts ++ n.services.flatMap Service.entryTexts

/-- The texts that the description of the device shows are plain. -/
structure IsPlain (n : DeviceNode) : Prop where
  deviceType : IsPlainText n.deviceType
  udn : IsPlainText n.udn
  info : ∀ t ∈ n.info.texts, IsPlainText t
  icons : ∀ i ∈ n.icons, ∀ t ∈ i.texts, IsPlainText t
  services : ∀ s ∈ n.services, ∀ t ∈ s.entryTexts, IsPlainText t

theorem isPlain_of_texts {n : DeviceNode} (h : ∀ t ∈ n.texts, IsPlainText t) : n.IsPlain := by
  simp only [texts, List.forall_mem_append, List.forall_mem_cons, List.mem_flatMap, forall_exists_index, and_imp] at h
  obtain ⟨⟨⟨⟨htype, hudn, -⟩, hinfo⟩, hicons⟩, hservices⟩ := h
  exact ⟨htype, hudn, hinfo, fun i hi t ht => hicons t i hi ht, fun s hs t ht => hservices t s hs ht⟩

/-- The device as its description shows it. -/
def described (n : DeviceNode) : DeviceNode :=
  { deviceType := n.deviceType, udn := n.udn, info := n.info, icons := n.icons,
    services := n.services.map Service.listed }

variable {n : DeviceNode} {ds : List Device}

theorem child?_toElement (name : String) : (Device.toElement ⟨n, ds⟩).child? name =
    (n.toElements ++ Element.listOf "deviceList" (Device.elementsOfAll ds) ++
      Element.optionalText "presentationURL" n.info.presentationUrl).find? (·.name == name) := by
  rw [Device.toElement, Element.child?_ofElements]

theorem info_toElement (h : n.IsPlain) : DeviceInfo.ofElement (Device.toElement ⟨n, ds⟩) = n.info := by
  have hinfo := h.info
  simp only [DeviceInfo.texts, List.forall_mem_cons] at hinfo
  obtain ⟨hfriendly, hmaker, hmakerUrl, hdescription, hmodel, hnumber, hmodelUrl, hserial, hupc, hpresentation, -⟩ :=
    hinfo
  have htext : ∀ {name content : String}, (Device.toElement ⟨n, ds⟩).child? name = some (.ofText name content) →
      IsPlainText content → (Device.toElement ⟨n, ds⟩).childText name = content := Element.childText_of_ofText
  have hoptional : ∀ {name content : String},
      (Device.toElement ⟨n, ds⟩).child? name = (Element.optionalText name content).head? →
      IsPlainText content → (Device.toElement ⟨n, ds⟩).childText name = content := Element.childText_of_optionalText
  unfold DeviceInfo.ofElement
  rw [htext (by simp [child?_toElement, toElements]) hfriendly,
    htext (by simp [child?_toElement, toElements]) hmaker,
    hoptional (by simp [child?_toElement, toElements]) hmakerUrl,
    hoptional (by simp [child?_toElement, toElements]) hdescription,
    htext (by simp [child?_toElement, toElements]) hmodel,
    hoptional (by simp [child?_toElement, toElements]) hnumber,
    hoptional (by simp [child?_toElement, toElements]) hmodelUrl,
    hoptional (by simp [child?_toElement, toElements]) hserial,
    hoptional (by simp [child?_toElement, toElements]) hupc,
    hoptional (by simp [child?_toElement, toElements]) hpresentation]

theorem listed_iconList : (Device.toElement ⟨n, ds⟩).listed "iconList" "icon" = n.icons.map Icon.toElement := by
  refine Element.listed_of_listOf ?_ fun _ => rfl
  simp [child?_toElement, toElements]

/-- The element of a device is read as the device. -/
theorem ofElement_toElement (h : n.IsPlain) : ofElement (Device.toElement ⟨n, ds⟩) = n.described := by
  have htype : (Device.toElement ⟨n, ds⟩).childText "deviceType" = n.deviceType :=
    Element.childText_of_ofText (by simp [child?_toElement, toElements]) h.deviceType
  have hudn : (Device.toElement ⟨n, ds⟩).childText "UDN" = n.udn :=
    Element.childText_of_ofText (by simp [child?_toElement, toElements]) h.udn
  have hicons : (n.icons.map Icon.toElement).map Icon.ofElement = n.icons := by
    rw [List.map_map]
    exact (List.map_congr_left fun i hi => Icon.ofElement_toElement (h.icons i hi)).trans (List.map_id _)
  have hservices : (n.services.map Service.toEntry).map Service.ofEntry = n.services.map Service.listed := by
    rw [List.map_map]
    exact List.map_congr_left fun s hs => Service.ofEntry_toEntry (h.services s hs)
  unfold ofElement described
  rw [htype, hudn, info_toElement h, listed_iconList, hicons, Device.listed_serviceList, hservices]

theorem legible_of_mem_toElements (h : n.IsPlain) : ∀ e ∈ n.toElements, Legible e.toNode := by
  have hinfo := h.info
  simp only [DeviceInfo.texts, List.forall_mem_cons] at hinfo
  obtain ⟨hfriendly, hmaker, hmakerUrl, hdescription, hmodel, hnumber, hmodelUrl, hserial, hupc, -, -⟩ := hinfo
  have hicons : ∀ e ∈ n.icons.map Icon.toElement, Legible e.toNode :=
    List.forall_mem_map.2 fun i hi => Icon.legible_toElement (h.icons i hi)
  have hservices : ∀ e ∈ n.services.map Service.toEntry, Legible e.toNode :=
    List.forall_mem_map.2 fun s hs => Service.legible_toEntry (h.services s hs)
  unfold toElements
  simp only [List.forall_mem_append, List.forall_mem_cons, List.not_mem_nil, false_implies, implies_true, and_true,
    and_assoc]
  exact ⟨Element.legible_ofText (by decide) h.deviceType, Element.legible_ofText (by decide) hfriendly,
    Element.legible_ofText (by decide) hmaker, Element.legible_of_mem_optionalText (by decide) hmakerUrl,
    Element.legible_of_mem_optionalText (by decide) hdescription, Element.legible_ofText (by decide) hmodel,
    Element.legible_of_mem_optionalText (by decide) hnumber, Element.legible_of_mem_optionalText (by decide) hmodelUrl,
    Element.legible_of_mem_optionalText (by decide) hserial, Element.legible_ofText (by decide) h.udn,
    Element.legible_of_mem_optionalText (by decide) hupc, Element.legible_of_mem_listOf (by decide) hicons,
    Element.legible_of_mem_listOf (by decide) hservices⟩

end DeviceNode

/-! ## Trees -/

namespace Device

mutual

/-- All texts that the description of a tree shows, the base aside. -/
def texts : Device → List String
  | ⟨n, ds⟩ => n.texts ++ textsOfAll ds

def textsOfAll : List Device → List String
  | [] => []
  | d :: ds => d.texts ++ textsOfAll ds

end

mutual

/-- The tree as its description shows it. -/
def described : Device → Device
  | ⟨n, ds⟩ => ⟨n.described, describedAll ds⟩

def describedAll : List Device → List Device
  | [] => []
  | d :: ds => d.described :: describedAll ds

end

theorem ofElement_eq (e : Element) :
    ofElement e = ⟨.ofElement e, (e.listed "deviceList" "device").map ofElement⟩ := by
  rw [ofElement, List.map_subtype (g := ofElement) fun _ _ => rfl, List.unattach_attach]

mutual

theorem legible_toElement : ∀ d : Device, (∀ t ∈ d.texts, IsPlainText t) → Legible d.toElement.toNode
  | ⟨n, ds⟩, h => by
    rw [texts, List.forall_mem_append] at h
    have hnode := DeviceNode.isPlain_of_texts h.1
    have hpresentation : IsPlainText n.info.presentationUrl := hnode.info _ (by simp [DeviceInfo.texts])
    rw [toElement]
    refine Element.legible_ofElements (by decide) ?_
    rw [List.forall_mem_append, List.forall_mem_append]
    exact ⟨⟨DeviceNode.legible_of_mem_toElements hnode,
      Element.legible_of_mem_listOf (by decide) (legible_of_mem_elementsOfAll ds h.2)⟩,
      Element.legible_of_mem_optionalText (by decide) hpresentation⟩

theorem legible_of_mem_elementsOfAll : ∀ ds : List Device, (∀ t ∈ textsOfAll ds, IsPlainText t) →
    ∀ e ∈ elementsOfAll ds, Legible e.toNode
  | [], _, e, he => by cases he
  | d :: ds, h, e, he => by
    rw [textsOfAll, List.forall_mem_append] at h
    rw [elementsOfAll] at he
    rcases List.mem_cons.1 he with rfl | he
    · exact legible_toElement d h.1
    · exact legible_of_mem_elementsOfAll ds h.2 e he

end

mutual

/-- The element of a tree is read as the tree. -/
theorem ofElement_toElement : ∀ d : Device, (∀ t ∈ d.texts, IsPlainText t) → ofElement d.toElement = d.described
  | ⟨n, ds⟩, h => by
    rw [texts, List.forall_mem_append] at h
    rw [ofElement_eq, DeviceNode.ofElement_toElement (DeviceNode.isPlain_of_texts h.1), listed_deviceList,
      map_ofElement_elementsOfAll ds h.2, described]

theorem map_ofElement_elementsOfAll : ∀ ds : List Device, (∀ t ∈ textsOfAll ds, IsPlainText t) →
    (elementsOfAll ds).map ofElement = describedAll ds
  | [], _ => rfl
  | d :: ds, h => by
    rw [textsOfAll, List.forall_mem_append] at h
    rw [elementsOfAll, List.map_cons, ofElement_toElement d h.1, map_ofElement_elementsOfAll ds h.2, describedAll]

end

/-! ## Documents -/

/-- What stands in the root of the description. -/
def contents (d : Device) : List Element :=
  d.node.version.toElement :: Element.optionalText "URLBase" d.node.urlBase ++ [d.toElement]

theorem name_toElement (d : Device) : d.toElement.name = "device" := by
  obtain ⟨n, ds⟩ := d
  rw [toElement]
  rfl

variable {d : Device}

theorem readDocument_description (h : ∀ t ∈ d.node.urlBase :: d.texts, IsPlainText t) :
    readDocument "root" d.description = .ok (.ofElements "root" d.contents) := by
  rw [List.forall_mem_cons] at h
  refine readDocument_write (by decide) ⟨by decide, by decide, by decide, by decide⟩ ?_
  rw [List.cons_append, List.forall_mem_cons, List.forall_mem_append]
  refine ⟨SpecVersion.legible_toElement _, Element.legible_of_mem_optionalText (by decide) h.1, fun e he => ?_⟩
  rw [List.mem_singleton.1 he]
  exact legible_toElement d h.2

/-- The tree that a description is read as: the described one, as the tree of a root device with the
version and base of the one that was described. -/
def published (d : Device) : Device :=
  (d.described.modify fun n => { n with version := d.node.version, urlBase := d.node.urlBase }).relink

theorem ofRoot_contents (h : ∀ t ∈ d.node.urlBase :: d.texts, IsPlainText t) (hv : d.node.version.InRange) :
    ofRoot (.ofElements "root" d.contents) = .ok d.published := by
  rw [List.forall_mem_cons] at h
  have hdevice : (Element.ofElements "root" d.contents).child? "device" = some d.toElement := by
    simp [Element.child?_ofElements, contents, name_toElement, SpecVersion.toElement]
  have hversion : SpecVersion.ofRoot (.ofElements "root" d.contents) = d.node.version := by
    refine SpecVersion.ofRoot_of_child? ?_ hv
    simp [Element.child?_ofElements, contents, SpecVersion.toElement]
  have hbase : (Element.ofElements "root" d.contents).childText "URLBase" = d.node.urlBase := by
    refine Element.childText_of_optionalText ?_ h.1
    simp [Element.child?_ofElements, contents, name_toElement, SpecVersion.toElement]
  unfold ofRoot published
  rw [hdevice, hversion, hbase]
  simp only
  rw [ofElement_toElement d h.2]

/-! ### What is kept -/

theorem described_relink_node (n : DeviceNode) : n.relink.described = n.described := by
  unfold DeviceNode.described DeviceNode.relink
  simp only [List.map_map]
  rfl

mutual

theorem described_attach (l : DeviceLink) : ∀ d : Device, (d.attach l).described = d.described
  | ⟨n, ds⟩ => by
    rw [attach, described, described, described_relink_node, describedAll_attachAll]
    rfl

theorem describedAll_attachAll (l : DeviceLink) : ∀ ds : List Device, describedAll (attachAll l ds) = describedAll ds
  | [] => rfl
  | d :: ds => by
    rw [attachAll, describedAll, describedAll, described_attach l d, describedAll_attachAll l ds]

end

theorem described_relink (d : Device) : d.relink.described = d.described := by
  obtain ⟨n, ds⟩ := d
  rw [relink, described, described, described_relink_node, describedAll_attachAll]

mutual

theorem described_described : ∀ d : Device, d.described.described = d.described
  | ⟨n, ds⟩ => by
    have hnode : n.described.described = n.described := by
      unfold DeviceNode.described
      simp only [List.map_map]
      rfl
    rw [described, described, hnode, describedAll_describedAll ds]

theorem describedAll_describedAll : ∀ ds : List Device, describedAll (describedAll ds) = describedAll ds
  | [] => rfl
  | d :: ds => by
    rw [describedAll, describedAll, described_described d, describedAll_describedAll ds]

end

theorem described_published (d : Device) : d.published.described = d.described := by
  have hsame : ∀ (e : Device) (v : SpecVersion) (b : String),
      (e.modify fun n => { n with version := v, urlBase := b }).described = e.described := by
    rintro ⟨n, ds⟩ v b
    unfold modify
    rw [described, described]
    rfl
  unfold published
  rw [described_relink, hsame, described_described]

/-- Reading the description of a tree of devices gives a root device with the same version and base
and the same tree: types, names, what is said to people, icons and the entries of services. -/
theorem ofDescription_description (h : ∀ t ∈ d.node.urlBase :: d.texts, IsPlainText t)
    (hv : d.node.version.InRange) :
    ofDescription d.description = .ok d.published ∧ d.published.isRoot = true ∧
      d.published.node.version = d.node.version ∧ d.published.node.urlBase = d.node.urlBase ∧
      d.published.described = d.described := by
  refine ⟨?_, ?_, rfl, rfl, described_published d⟩
  · unfold ofDescription
    rw [readDocument_description h]
    exact ofRoot_contents h hv
  · obtain ⟨n, ds⟩ := d
    rfl

/-- A house with markup in its name and empty fields, whose lamp has a service and holds a sensor. -/
def house : Device :=
  let sensor : Device := { node := { deviceType := "Sensor", info := { friendlyName := "<é> & \"co\"" } } }
  let switch : Service := { serviceType := "SwitchPower", serviceId := "Switch", scpdUrl := "/switch.xml?a=1&b=2" }
  let lamp : Device :=
    { node := { deviceType := "Lamp", udn := "uuid:lamp", services := [switch] }, embedded := [sensor] }
  { node :=
      { deviceType := "House", udn := "uuid:house"
        info := { friendlyName := "]]>", modelUrl := "http://example.com/", presentationUrl := "/" }
        icons := [{ mimetype := "image/png", width := "48", url := "/icon.png" }, {}]
        version := ⟨2, 0⟩
        urlBase := "http://192.168.1.5:6100" }
    embedded := [lamp, sensor] }

theorem ofDescription_description_house :
    (∀ t ∈ house.node.urlBase :: house.texts, IsPlainText t) ∧ house.node.version.InRange ∧
    ofDescription house.description = .ok house.published ∧ house.published.isRoot = true ∧
    house.published.node.version = ⟨2, 0⟩ ∧ house.published.node.urlBase = "http://192.168.1.5:6100" ∧
    house.published.described = house.described := by
  have hplain : ∀ t ∈ house.node.urlBase :: house.texts, IsPlainText t := by decide
  have hversion : house.node.version.InRange := by decide
  exact ⟨hplain, hversion, ofDescription_description hplain hversion⟩

end Device

end Upnp
