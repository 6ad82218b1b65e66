import Upnp.Device.Description
import Upnp.Device.Loading
import Upnp.Device.Revision

/-
Links are never stale. What services, actions, arguments and embedded devices know about what they
belong to is a copy, taken when they were attached; every change of a device or of one of its
services takes the copies anew where it has to. In whatever order a tree was built and changed, each
copy is therefore what its owner says of itself, and the addresses in all of them are the root's.
-/

namespace Upnp

/-! ## Links that are current -/

/-- The action knows the service that it belongs to, and its arguments know the action. -/
structure Action.Linked (service : ServiceLink) (a : Action) : Prop where
  service : a.service = some service
  arguments : ∀ x ∈ a.arguments, x.action = some a.name

/-- The service knows the device that it belongs to, and its actions know the service. -/
structure Service.Linked (device : DeviceLink) (s : Service) : Prop where
  device : s.device = some device
  actions : ∀ a ∈ s.actions, a.Linked s.link

/-- The services and embedded devices know the device, and so on within the embedded devices. -/
inductive Device.Linked : Device → Prop
  | intro {n : DeviceNode} {ds : List Device} (services : ∀ s ∈ n.services, s.Linked n.link)
      (parents : ∀ e ∈ ds, e.node.parent = some n.link) (embedded : ∀ e ∈ ds, e.Linked) : Linked ⟨n, ds⟩

/-! ## Actions and services -/

namespace Service

theorem attach_action_linked (l : ServiceLink) (a : Action) : (a.attach l).Linked l := by
  refine ⟨rfl, fun x hx => ?_⟩
  obtain ⟨y, -, rfl⟩ := List.mem_map.1 hx
  rfl

/-- Telling the actions makes the service one of its device, whatever they knew before. -/
theorem relink_linked {l : DeviceLink} {s : Service} (h : s.device = some l) : s.relink.Linked l := by
  refine ⟨h, fun a ha => ?_⟩
  obtain ⟨b, -, rfl⟩ := List.mem_map.1 ha
  exact attach_action_linked _ b

theorem attach_linked (l : DeviceLink) (s : Service) : (s.attach l).Linked l :=
  relink_linked rfl

/-- A change of a service. -/
inductive Change where
  | serviceType (serviceType : String)
  | serviceId (serviceId : String)
  | scpdUrl (scpdUrl : String)
  | controlUrl (controlUrl : String)
  | eventSubUrl (eventSubUrl : String)
  | action (a : Action)
  | stateVariable (v : StateVariable)
  /-- Loading the text of a description, which leaves the service as it is if it fails. -/
  | description (text : String)

def apply (s : Service) : Change → Service
  | .serviceType t => s.setServiceType t
  | .serviceId i => s.setServiceId i
  | .scpdUrl u => s.setScpdUrl u
  | .controlUrl u => s.setControlUrl u
  | .eventSubUrl u => s.setEventSubUrl u
  | .action a => s.addAction a
  | .stateVariable v => s.addVariable v
  | .description text =>
    match s.load text with
    | .ok loaded => loaded
    | .error _ => s

theorem addAction_linked {l : DeviceLink} {s : Service} (h : s.Linked l) (a : Action) : (s.addAction a).Linked l := by
  refine ⟨h.device, fun b hb => ?_⟩
  rcases List.mem_append.1 hb with hb | hb
  · exact h.actions b hb
  · rw [List.mem_singleton.1 hb]
    exact attach_action_linked _ a

theorem load_linked {l : DeviceLink} {s loaded : Service} (h : s.Linked l) {text : String}
    (hl : s.load text = .ok loaded) : loaded.Linked l := by
  unfold load at hl
  cases hr : readDocument "scpd" text with
  | error e => rw [hr] at hl; cases hl
  | ok root =>
    rw [hr] at hl
    cases hl
    exact relink_linked h.device

theorem fetch_linked {l : DeviceLink} {s loaded : Service} (h : s.Linked l) {network : Http.Network}
    (hf : s.fetch network = .ok loaded) : loaded.Linked l := by
  unfold fetch at hf
  split at hf
  · cases hf; exact h
  · split at hf
    · cases hf
    · split at hf
      · cases hf
      · exact load_linked h hf

theorem tried_linked {l : DeviceLink} {s : Service} (h : s.Linked l) (network : Http.Network) :
    (s.tried network).Linked l := by
  unfold tried
  split
  · rename_i hf
    exact fetch_linked h hf
  · exact h

/-- No change of a service leaves its actions behind. -/
theorem Linked.apply {l : DeviceLink} {s : Service} (h : s.Linked l) (c : Change) : (s.apply c).Linked l := by
  cases c with
  | serviceType t => exact relink_linked h.device
  | serviceId i => exact relink_linked h.device
  | scpdUrl u => exact relink_linked h.device
  | controlUrl u => exact relink_linked h.device
  | eventSubUrl u => exact relink_linked h.device
  | action a => exact addAction_linked h a
  | stateVariable v => exact ⟨h.device, h.actions⟩
  | description text =>
    unfold Service.apply
    simp only
    split
    · rename_i hl
      exact load_linked h hl
    · exact h

end Service

/-! ## Attaching and telling all parts -/

namespace Device

theorem relink_services_linked (n : DeviceNode) : ∀ s ∈ n.relink.services, s.Linked n.link := by
  intro s hs
  obtain ⟨t, -, rfl⟩ := List.mem_map.1 hs
  exact Service.attach_linked _ t

mutual

/-- An attached device is linked all the way down, whatever its parts knew before. -/
theorem attach_linked (l : DeviceLink) : ∀ d : Device, (d.attach l).node.parent = some l ∧ (d.attach l).Linked
  | ⟨n, ds⟩ => by
    rw [attach]
    have h := attachAll_linked (DeviceNode.link { n with parent := some l }) ds
    exact ⟨rfl, .intro (relink_services_linked _) (fun e he => (h e he).1) fun e he => (h e he).2⟩

theorem attachAll_linked (l : DeviceLink) : ∀ ds : List Device, ∀ e ∈ attachAll l ds,
    e.node.parent = some l ∧ e.Linked
  | [], e, he => by cases he
  | d :: ds, e, he => by
    rw [attachAll] at he
    rcases List.mem_cons.1 he with rfl | he
    · exact attach_linked l d
    · exact attachAll_linked l ds e he

end

theorem relink_linked (d : Device) : d.relink.Linked := by
  have h := attachAll_linked d.node.link d.embedded
  exact .intro (relink_services_linked d.node) (fun e he => (h e he).1) fun e he => (h e he).2

theorem Linked.services {d : Device} (h : d.Linked) : ∀ s ∈ d.node.services, s.Linked d.link := by
  cases h with
  | intro hs hp he => exact hs

theorem Linked.parents {d : Device} (h : d.Linked) : ∀ e ∈ d.embedded, e.node.parent = some d.link := by
  cases h with
  | intro hs hp he => exact hp

theorem Linked.embedded {d : Device} (h : d.Linked) : ∀ e ∈ d.embedded, e.Linked := by
  cases h with
  | intro hs hp he => exact he

/-- A device that says the same of itself as before needs to tell its embedded devices nothing. -/
theorem Linked.modify {d : Device} (h : d.Linked) (f : DeviceNode → DeviceNode) (hl : (f d.node).link = d.link)
    (hs : ∀ s ∈ (f d.node).services, s.Linked d.link) : (d.modify f).Linked := by
  refine .intro (hl ▸ hs) (fun e he => ?_) h.embedded
  rw [hl]
  exact h.parents e he

/-! ## Changing all services -/

theorem mapServices_parent (f : Nat → Service → Service) (i : Nat) : ∀ d : Device,
    (d.mapServices f i).node.parent = d.node.parent
  | ⟨n, ds⟩ => by
    rw [mapServices]

mutual

/-- Changes that keep each service linked keep the whole tree linked. -/
theorem mapServices_linked {f : Nat → Service → Service}
    (hf : ∀ (l : DeviceLink) (i : Nat) (s : Service), s.Linked l → (f i s).Linked l) (i : Nat) :
    ∀ {d : Device}, d.Linked → (d.mapServices f i).Linked
  | ⟨n, ds⟩, h => by
    rw [mapServices]
    refine .intro ?_ ?_ ?_
    · intro s hs
      obtain ⟨k, hk, rfl⟩ := List.mem_mapIdx.1 hs
      exact hf _ _ _ (h.services _ (List.getElem_mem hk))
    · exact fun e he => (mapServicesOfAll_linked hf (i + n.services.length) h.parents h.embedded e he).1
    · exact fun e he => (mapServicesOfAll_linked hf (i + n.services.length) h.parents h.embedded e he).2

theorem mapServicesOfAll_linked {f : Nat → Service → Service}
    (hf : ∀ (l : DeviceLink) (i : Nat) (s : Service), s.Linked l → (f i s).Linked l) (i : Nat) {l : DeviceLink} :
    ∀ {ds : List Device}, (∀ e ∈ ds, e.node.parent = some l) → (∀ e ∈ ds, e.Linked) →
      ∀ e ∈ mapServicesOfAll f i ds, e.node.parent = some l ∧ e.Linked
  | [], _, _, e, he => by cases he
  | d :: ds, hp, hl, e, he => by
    rw [mapServicesOfAll] at he
    rcases List.mem_cons.1 he with rfl | he
    · exact ⟨(mapServices_parent f i d).trans (hp d List.mem_cons_self),
        mapServices_linked hf i (hl d List.mem_cons_self)⟩
    · exact mapServicesOfAll_linked hf _ (fun e he => hp e (List.mem_cons_of_mem d he))
        (fun e he => hl e (List.mem_cons_of_mem d he)) e he

end

/-! ## Changing devices -/

/-- A change of a device. -/
inductive Change where
  | deviceType (deviceType : String)
  | udn (udn : String)
  | uuid (uuid : String)
  | urlBase (urlBase : String)
  | locationUrl (locationUrl : String)
  | descriptionUrl (descriptionUrl : String)
  | version (version : SpecVersion)
  | info (info : DeviceInfo)
  | icon (icon : Icon)
  | service (s : Service)
  /-- Embedding a device, which may have come about in any way. -/
  | embedded (e : Device)
  /-- Changing the service at a position. -/
  | onService (i : Nat) (c : Service.Change)
  /-- Fetching the descriptions of all services, some of which may fail. -/
  | descriptions (network : Nat → Http.Network)
  /-- Completing the device for serving. -/
  | revision (uuid : Nat → String) (i : Nat)

def apply (d : Device) : Change → Device
  | .deviceType t => d.setDeviceType t
  | .udn u => d.setUdn u
  | .uuid u => d.setUuid u
  | .urlBase u => d.setUrlBase u
  | .locationUrl u => d.setLocationUrl u
  | .descriptionUrl u => d.setDescriptionUrl u
  | .version v => d.setVersion v
  | .info i => d.setInfo i
  | .icon i => d.addIcon i
  | .service s => d.addService s
  | .embedded e => d.addEmbedded e
  | .onService i c => d.modifyService i (·.apply c)
  | .descriptions network => d.loadServices network
  | .revision uuid i => (d.revise uuid i).1

theorem addService_linked {d : Device} (h : d.Linked) (s : Service) : (d.addService s).Linked := by
  refine h.modify _ rfl fun t ht => ?_
  rcases List.mem_append.1 ht with ht | ht
  · exact h.services t ht
  · rw [List.mem_singleton.1 ht]
    exact Service.attach_linked _ s

theorem addEmbedded_linked {d : Device} (h : d.Linked) (e : Device) : (d.addEmbedded e).Linked := by
  have he := attach_linked d.link e
  have hmem : ∀ x ∈ d.embedded ++ [e.attach d.link], x.node.parent = some d.link ∧ x.Linked := by
    intro x hx
    rcases List.mem_append.1 hx with hx | hx
    · exact ⟨h.parents x hx, h.embedded x hx⟩
    · rw [List.mem_singleton.1 hx]
      exact he
  exact .intro h.services (fun x hx => (hmem x hx).1) fun x hx => (hmem x hx).2

theorem modifyService_linked {d : Device} (h : d.Linked) (i : Nat) {f : Service → Service}
    (hf : ∀ s, s.Linked d.link → (f s).Linked d.link) : (d.modifyService i f).Linked := by
  refine h.modify _ rfl fun s hs => ?_
  obtain ⟨k, hk, rfl⟩ := List.mem_iff_getElem.1 hs
  rw [List.length_modify] at hk
  rw [List.getElem_modify]
  have hmem : d.node.services[k] ∈ d.node.services := List.getElem_mem hk
  split
  · exact hf _ (h.services _ hmem)
  · exact h.services _ hmem

/-- Completing tells all parts anew what they belong to, the embedded devices before the root and once more
with it. -/
theorem revise_linked (uuid : Nat → String) (i : Nat) : ∀ d : Device, (d.revise uuid i).1.Linked
  | ⟨n, ds⟩ => by
    rw [revise]
    exact relink_linked _

/-- Every change of a device keeps the tree linked. -/
theorem Linked.apply {d : Device} (h : d.Linked) (c : Change) : (d.apply c).Linked := by
  cases c with
  | deviceType t => exact relink_linked _
  | udn u => exact relink_linked _
  | uuid u => exact relink_linked _
  | urlBase u => exact relink_linked _
  | locationUrl u => exact relink_linked _
  | descriptionUrl u => exact h.modify (fun n => { n with descriptionUrl := u }) rfl h.services
  | version v => exact h.modify (fun n => { n with version := v }) rfl h.services
  | info i => exact h.modify (fun n => { n with info := i }) rfl h.services
  | icon i => exact h.modify (fun n => { n with icons := n.icons ++ [i] }) rfl h.services
  | service s => exact addService_linked h s
  | embedded e => exact addEmbedded_linked h e
  | onService i c => exact modifyService_linked h i fun s hs => hs.apply c
  | descriptions network => exact mapServices_linked (fun _ i _ hs => Service.tried_linked hs (network i)) 0 h
  | revision uuid i => exact revise_linked uuid i d

theorem revise_parent (uuid : Nat → String) (i : Nat) : ∀ d : Device, (d.revise uuid i).1.node.parent = d.node.parent
  | ⟨n, ds⟩ => by
    rw [revise]
    rfl

/-- No change of a device embeds it. -/
theorem apply_parent (d : Device) (c : Change) : (d.apply c).node.parent = d.node.parent := by
  cases c with
  | descriptions network => exact mapServices_parent _ 0 d
  | revision uuid i => exact revise_parent uuid i d
  | _ => rfl

/-! ## Whole histories -/

/-- The root devices that can come about. -/
inductive Reachable : Device → Prop
  | named (deviceType friendlyName : String) : Reachable (named deviceType friendlyName)
  | ofDescription {text : String} {d : Device} (h : ofDescription text = .ok d) : Reachable d
  | change {d : Device} (h : Reachable d) (c : Change) : Reachable (d.apply c)

theorem ofElement_parent (e : Xml.Element) : (ofElement e).node.parent = none := by
  rw [ofElement]
  rfl

theorem ofDescription_linked {text : String} {d : Device} (h : ofDescription text = .ok d) :
    d.Linked ∧ d.node.parent = none := by
  unfold ofDescription at h
  cases hr : readDocument "root" text with
  | error e => rw [hr] at h; cases h
  | ok root =>
    rw [hr] at h
    change ofRoot root = .ok d at h
    unfold ofRoot at h
    split at h
    · cases h
    · rename_i e _
      cases h
      exact ⟨relink_linked _, ofElement_parent e⟩

theorem Reachable.linked {d : Device} (h : d.Reachable) : d.Linked ∧ d.node.parent = none := by
  induction h with
  | named t n => exact ⟨.intro (by simp) (by simp) (by simp), rfl⟩
  | ofDescription h => exact ofDescription_linked h
  | change h c ih => exact ⟨ih.1.apply c, (apply_parent _ c).trans ih.2⟩

/-- A device of the tree of a root device, at any depth. -/
inductive Within (root : Device) : Device → Prop
  | root : Within root root
  | embedded {d e : Device} (h : Within root d) (he : e ∈ d.embedded) : Within root e

theorem Within.linked {root d : Device} (hw : root.Within d) (h : root.Linked) : d.Linked := by
  induction hw with
  | root => exact h
  | embedded _ he ih => exact ih.embedded _ he

/-- The addresses are handed down from the root. -/
theorem Within.addresses {root d : Device} (hw : root.Within d) (h : root.Linked) (hr : root.node.parent = none) :
    d.link.urlBase = root.node.urlBase ∧ d.link.locationUrl = root.node.locationUrl := by
  induction hw with
  | root =>
    unfold link DeviceNode.link
    rw [hr]
    exact ⟨rfl, rfl⟩
  | embedded hd he ih =>
    -- the device reads both addresses off its link to the parent
    have hp := (hd.linked h).parents _ he
    unfold link DeviceNode.link at ih ⊢
    rw [hp]
    exact ih

/-- All copies that the parts of a device hold are what their owners say of themselves, and the
addresses in them are those of the root. -/
structure LinksCurrent (root d : Device) : Prop where
  services : ∀ s ∈ d.node.services, s.device = some d.link
  actions : ∀ s ∈ d.node.services, ∀ a ∈ s.actions, a.service = some s.link
  arguments : ∀ s ∈ d.node.services, ∀ a ∈ s.actions, ∀ x ∈ a.arguments, x.action = some a.name
  embedded : ∀ e ∈ d.embedded, e.node.parent = some d.link
  parentUdn : ∀ e ∈ d.embedded, e.link.parentUdn = some d.node.udn
  urlBase : d.link.urlBase = root.node.urlBase
  locationUrl : d.link.locationUrl = root.node.locationUrl

/-- Whatever happened to a root device, the links of all devices in its tree are current, and the
root itself has no parent. -/
theorem Reachable.linksCurrent {root : Device} (h : root.Reachable) :
    root.link.parentUdn = none ∧ ∀ d, root.Within d → root.LinksCurrent d := by
  obtain ⟨hl, hr⟩ := h.linked
  refine ⟨by unfold link DeviceNode.link; rw [hr]; rfl, fun d hw => ?_⟩
  have hd := hw.linked hl
  have ha := hw.addresses hl hr
  exact {
    services := fun s hs => (hd.services s hs).device
    actions := fun s hs a ha => ((hd.services s hs).actions a ha).service
    arguments := fun s hs a ha => ((hd.services s hs).actions a ha).arguments
    embedded := hd.parents
    parentUdn := fun e he => by
      have hp := hd.parents e he
      unfold link DeviceNode.link
      rw [hp]
      rfl
    urlBase := ha.1
    locationUrl := ha.2 }

/-- A gateway whose embedded device was built first, and whose base was set last. -/
def gateway : Device :=
  let lamp := (named "urn:lamp" "Lamp").addService
    { serviceType := "urn:switch", serviceId := "switch", actions := [{ name := "Set", arguments := [{ name := "On" }] }] }
  (((named "urn:gateway" "Gateway").apply (.embedded lamp)).apply (.udn "uuid:1")).apply (.urlBase "http://gateway/")

theorem gateway_reachable : gateway.Reachable :=
  .change (.change (.change (.named "urn:gateway" "Gateway") (.embedded _)) (.udn _)) (.urlBase _)

theorem gateway_linksCurrent : gateway.Reachable ∧ gateway.link.parentUdn = none ∧
    ∀ d, gateway.Within d → gateway.LinksCurrent d :=
  ⟨gateway_reachable, gateway_reachable.linksCurrent⟩

end Device

end Upnp
