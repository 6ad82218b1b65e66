import Upnp.Device.Description

/-
The services that the description of a device lists: each device of the tree has an entry for each
of its services, and the entries of the embedded devices follow within theirs.
-/

namespace Upnp

open Upnp.Xml

/-! ## Children of written elements -/

namespace Xml.Element

theorem childrenNamed_ofElements (tag name : String) (es : List Element) :
    (ofElements tag es).childrenNamed name = es.filter (·.name == name) := by
  have h : (es.map toNode).filterMap Node.toElement? = es := by
    induction es with
    | nil => rfl
    | cons e es ih =>
      rw [List.map_cons, List.filterMap_cons_some (by rfl), ih]
  unfold childrenNamed ofElements
  rw [h]

theorem filter_optionalText (tag name content : String) :
    (optionalText tag content).filter (·.name == name) = if tag = name then optionalText tag content else [] := by
  have hname : (ofText tag content).name = tag := rfl
  unfold optionalText
  split
  · simp
  · rw [List.filter_cons, hname, List.filter_nil]
    simp only [beq_iff_eq]

theorem filter_listOf (tag name : String) (es : List Element) :
    (listOf tag es).filter (·.name == name) = if tag = name then listOf tag es else [] := by
  have hname : (ofElements tag es).name = tag := rfl
  unfold listOf
  split
  · simp
  · rw [List.filter_cons, hname, List.filter_nil]
    simp only [beq_iff_eq]

/-- A written list of elements of one name is read as those elements. -/
theorem childrenNamed_head_listOf {tag item : String} {es : List Element} (h : ∀ e ∈ es, e.name = item) :
    ((listOf tag es).head?.map (·.childrenNamed item)).getD [] = es := by
  unfold listOf
  cases es with
  | nil => rfl
  | cons e es =>
    rw [List.isEmpty_cons, if_neg Bool.false_ne_true, List.head?_cons, Option.map_some, Option.getD_some,
      childrenNamed_ofElements, List.filter_eq_self]
    exact fun x hx => beq_iff_eq.2 (h x hx)

end Xml.Element

/-! ## Entries -/

namespace Device

/-- The service entries in an element that describes a device, those of embedded devices included. -/
def entriesIn (e : Element) : List Element :=
  e.listed "serviceList" "service" ++
    (e.listed "deviceList" "device").attach.flatMap fun ⟨x, _⟩ => entriesIn x
termination_by sizeOf e
decreasing_by exact Element.sizeOf_lt_of_mem_listed ‹_›

/-- The service entries in a description with this root. -/
def entries (root : Element) : List Element :=
  ((root.child? "device").map entriesIn).getD []

theorem entriesIn_eq (e : Element) : entriesIn e =
    e.listed "serviceList" "service" ++ (e.listed "deviceList" "device").flatMap entriesIn := by
  rw [entriesIn, List.flatMap_subtype (g := entriesIn) fun _ _ => rfl, List.unattach_attach]

theorem name_of_mem_elementsOfAll : ∀ {ds : List Device}, ∀ e ∈ elementsOfAll ds, e.name = "device"
  | [], e, he => by cases he
  | ⟨n, ds⟩ :: rest, e, he => by
    rw [elementsOfAll] at he
    rcases List.mem_cons.1 he with rfl | he
    · rw [toElement]
      rfl
    · exact name_of_mem_elementsOfAll e he

theorem listed_serviceList (n : DeviceNode) (ds : List Device) :
    (toElement ⟨n, ds⟩).listed "serviceList" "service" = n.services.map Service.toEntry := by
  unfold Element.listed Element.child?
  rw [toElement, Element.childrenNamed_ofElements]
  have hfilter : (n.toElements ++ Element.listOf "deviceList" (elementsOfAll ds) ++
      Element.optionalText "presentationURL" n.info.presentationUrl).filter (·.name == "serviceList") =
      Element.listOf "serviceList" (n.services.map Service.toEntry) := by
    unfold DeviceNode.toElements
    simp only [List.filter_append, Element.filter_listOf, Element.filter_optionalText, Element.ofText]
    simp
  rw [hfilter]
  refine Element.childrenNamed_head_listOf fun e he => ?_
  obtain ⟨s, -, rfl⟩ := List.mem_map.1 he
  rfl

theorem listed_deviceList (n : DeviceNode) (ds : List Device) :
    (toElement ⟨n, ds⟩).listed "deviceList" "device" = elementsOfAll ds := by
  unfold Element.listed Element.child?
  rw [toElement, Element.childrenNamed_ofElements]
  have hfilter : (n.toElements ++ Element.listOf "deviceList" (elementsOfAll ds) ++
      Element.optionalText "presentationURL" n.info.presentationUrl).filter (·.name == "deviceList") =
      Element.listOf "deviceList" (elementsOfAll ds) := by
    unfold DeviceNode.toElements
    simp only [List.filter_append, Element.filter_listOf, Element.filter_optionalText, Element.ofText]
    simp
  rw [hfilter]
  exact Element.childrenNamed_head_listOf name_of_mem_elementsOfAll

mutual

theorem entriesIn_toElement : ∀ d : Device, entriesIn d.toElement = d.allServices.map Service.toEntry
  | ⟨n, ds⟩ => by
    rw [entriesIn_eq, listed_serviceList, listed_deviceList, flatMap_elementsOfAll ds, allServices, List.map_append]

theorem flatMap_elementsOfAll : ∀ ds : List Device,
    (elementsOfAll ds).flatMap entriesIn = (servicesOfAll ds).map Service.toEntry
  | [] => rfl
  | d :: ds => by
    rw [elementsOfAll, servicesOfAll, List.flatMap_cons, entriesIn_toElement d, flatMap_elementsOfAll ds,
      List.map_append]

end

/-- A description lists the services of the whole tree, in order. -/
theorem entries_toRoot (d : Device) : entries d.toRoot = d.allServices.map Service.toEntry := by
  have hdevice : d.toElement.name = "device" := by
    obtain ⟨n, ds⟩ := d
    rw [toElement]
    rfl
  have hchild : d.toRoot.child? "device" = some d.toElement := by
    show ((Element.ofElements "root" _).childrenNamed "device").head? = _
    rw [Element.childrenNamed_ofElements, List.cons_append, List.filter_cons_of_neg (by simp [SpecVersion.toElement,
      Element.ofElements]), List.filter_append, Element.filter_optionalText, if_neg (by decide), List.nil_append,
      List.filter_cons_of_pos (by rw [hdevice]; rfl), List.head?_cons]
  unfold entries
  rw [hchild]
  exact entriesIn_toElement d

end Device

end Upnp
