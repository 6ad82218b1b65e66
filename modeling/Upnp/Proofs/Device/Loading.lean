import Upnp.Device.Loading
import Upnp.Proofs.Device.Registry
import Upnp.Proofs.Service.Description
import Upnp.Proofs.Text.Utf8

/-
What comes of fetching a device. Its description and the descriptions of its services are documents of
their own, and servers may hold them, refuse them or not answer at all. A fetched device is loaded if all
documents were there and could be read; loading adds the descriptions of the services and changes nothing
else, in embedded devices as in the device itself.
-/

namespace Upnp

/-! ## Documents -/

namespace Http

/-- What servers answer to requests for documents, `none` where no server answers. -/
abbrev Servers := String → Option Reply

/-- The network of these servers. -/
def Servers.network (w : Servers) : Network := fun url => fetched url (w url)

/-- The document at a URL is there. -/
def Servers.Holds (w : Servers) (url text : String) : Prop :=
  ∃ reply, w url = some reply ∧ reply.status = 200 ∧ text = reply.text

theorem Servers.holds_of_encoded {w : Servers} {url text : String} (h : w url = some ⟨200, Text.Utf8.encode text⟩) :
    w.Holds url text := by
  refine ⟨_, h, rfl, ?_⟩
  rw [Reply.text, Text.Utf8.encode, Text.Utf8.decodeMarking_encodeChars, String.ofList_toList]

/-- The document at a URL is not to be had. -/
inductive Servers.Refuses (w : Servers) (url : String) : Prop
  | silence (h : w url = none)
  | badStatus {reply : Reply} (h : w url = some reply) (hs : reply.status ≠ 200)

theorem Servers.network_eq_ok {w : Servers} {url text : String} : w.network url = .ok text ↔ w.Holds url text := by
  unfold network fetched Holds
  cases w url with
  | none => simp
  | some reply =>
    by_cases hs : reply.status = 200
    · simp [hs, eq_comm]
    · simp [hs]

theorem Servers.network_eq_error {w : Servers} {url : String} : (∃ e, w.network url = .error e) ↔ w.Refuses url := by
  unfold network fetched
  constructor
  · rintro ⟨e, he⟩
    cases hw : w url with
    | none => exact .silence hw
    | some reply =>
      rw [hw] at he
      exact .badStatus hw fun hs => by simp [hs] at he
  · rintro (h | ⟨h, hs⟩)
    · exact ⟨_, by rw [h]⟩
    · exact ⟨_, by rw [h]; exact if_neg hs⟩

end Http

/-! ## One service -/

namespace Service

/-- The service as the description of its device tells of it. -/
def undescribed (s : Service) : Service :=
  { s with version := {}, actions := [], stateVariables := [], hasDescription := false }

/-- The description was there and has been loaded. -/
def Retrieved (w : Http.Servers) (s loaded : Service) : Prop :=
  ∃ url text, s.link.absoluteScpdUrl = .ok url ∧ w.Holds url.text text ∧ s.load text = .ok loaded

/-- The description is not to be had, or it cannot be read. -/
inductive Unavailable (w : Http.Servers) (s : Service) : Prop
  | noUrl {e : DescriptionError} (h : s.link.absoluteScpdUrl = .error e)
  | refused {url : Url} (h : s.link.absoluteScpdUrl = .ok url) (hr : w.Refuses url.text)
  | unreadable {url : Url} {text : String} {e : DescriptionError} (h : s.link.absoluteScpdUrl = .ok url)
    (hw : w.Holds url.text text) (hl : s.load text = .error e)

variable {w : Http.Servers} {s loaded : Service}

theorem load_described {text : String} (h : s.load text = .ok loaded) :
    loaded.undescribed = s.undescribed ∧ loaded.hasDescription = true := by
  unfold load at h
  cases hr : readDocument "scpd" text with
  | error e =>
    rw [hr] at h
    cases h
  | ok root =>
    rw [hr] at h
    cases h
    exact ⟨rfl, rfl⟩

theorem fetch_of_holds {url : Url} {text : String} (hne : s.scpdUrl ≠ "") (hu : s.link.absoluteScpdUrl = .ok url)
    (hw : w.Holds url.text text) : s.fetch w.network = s.load text := by
  unfold fetch
  rw [if_neg hne, hu]
  simp only [Http.Servers.network_eq_ok.2 hw]

theorem fetch_eq_ok (hne : s.scpdUrl ≠ "") : s.fetch w.network = .ok loaded ↔ s.Retrieved w loaded := by
  unfold fetch Retrieved
  rw [if_neg hne]
  cases s.link.absoluteScpdUrl with
  | error e => simp
  | ok url =>
    simp only [Except.ok.injEq, exists_and_left, exists_eq_left', ← Http.Servers.network_eq_ok]
    cases w.network url.text with
    | error e => simp
    | ok text => simp

theorem fetch_eq_error (hne : s.scpdUrl ≠ "") : (∃ e, s.fetch w.network = .error e) ↔ s.Unavailable w := by
  unfold fetch
  rw [if_neg hne]
  constructor
  · rintro ⟨e, he⟩
    cases hu : s.link.absoluteScpdUrl with
    | error e => exact .noUrl hu
    | ok url =>
      simp only [hu] at he
      cases hn : w.network url.text with
      | error e => exact .refused hu (Http.Servers.network_eq_error.1 ⟨e, hn⟩)
      | ok text =>
        simp only [hn] at he
        exact .unreadable hu (Http.Servers.network_eq_ok.1 hn) he
  · rintro (h | ⟨h, hr⟩ | ⟨h, hw, hl⟩)
    · simp only [h, Except.error.injEq, exists_eq']
    · obtain ⟨e, he⟩ := Http.Servers.network_eq_error.2 hr
      simp only [h, he, Except.error.injEq, exists_eq']
    · simp only [h, Http.Servers.network_eq_ok.2 hw, hl, Except.error.injEq, exists_eq']

/-- An attempt to fetch the description changes nothing else. -/
theorem undescribed_tried (n : Http.Network) (s : Service) : (s.tried n).undescribed = s.undescribed := by
  unfold tried
  split
  · rename_i loaded hf
    unfold fetch at hf
    split at hf
    · cases hf
      rfl
    · split at hf
      · cases hf
      · split at hf
        · cases hf
        · exact (load_described hf).1
  · rfl

theorem fetch_of_failure?_eq_none {n : Http.Network} (h : s.failure? n = none) : s.fetch n = .ok (s.tried n) := by
  unfold failure? at h
  unfold tried
  cases hf : s.fetch n with
  | ok loaded => rfl
  | error e =>
    rw [hf] at h
    cases h

theorem failure?_ne_none_iff : s.failure? w.network ≠ none ↔ s.scpdUrl ≠ "" ∧ s.Unavailable w := by
  have hfetch : s.failure? w.network ≠ none ↔ ∃ e, s.fetch w.network = .error e := by
    unfold failure?
    cases s.fetch w.network <;> simp
  rw [hfetch]
  by_cases hne : s.scpdUrl = ""
  · unfold fetch
    simp [hne]
  · rw [fetch_eq_error hne, and_iff_right hne]

/-- A switch, whose description has an action and the variable that its argument is about. -/
def powerSwitch : Service :=
  let fresh : Service := { serviceType := "switch", serviceId := "" }
  (fresh.addAction { name := "SetPower", arguments := [
    { name := "On", direction := .input, relatedVariable := "Power" }] }).addVariable
      { name := "Power", dataType := "boolean" }

theorem fetch_powerSwitch {url : Url} (hne : s.scpdUrl ≠ "") (hu : s.link.absoluteScpdUrl = .ok url)
    (hw : w.Holds url.text powerSwitch.description) : ∃ t, s.fetch w.network = .ok t ∧
      t.actions.map Action.outline = [("SetPower", [("On", .input, "Power")])] ∧
      t.stateVariables = [{ name := "Power", dataType := "boolean" }] := by
  refine ⟨s.describedAs powerSwitch, ?_, outlines_describedAs s powerSwitch, rfl⟩
  rw [fetch_of_holds hne hu hw]
  exact load_description_eq ⟨by decide, by decide⟩ (by decide) (by decide) s

end Service

/-! ## All services of a device -/

namespace Device

mutual

theorem allServices_mapServices (f : Nat → Service → Service) (i : Nat) : ∀ d : Device,
    (d.mapServices f i).allServices = d.allServices.mapIdx fun k s => f (i + k) s
  | ⟨n, ds⟩ => by
    -- embedded services are numbered behind those of the device
    have hplace : ∀ k, i + n.services.length + k = i + (k + n.services.length) := fun k => by omega
    rw [mapServices, allServices, allServices, servicesOfAll_mapServicesOfAll f (i + n.services.length) ds,
      List.mapIdx_append]
    simp only [hplace]

theorem servicesOfAll_mapServicesOfAll (f : Nat → Service → Service) (i : Nat) : ∀ ds : List Device,
    servicesOfAll (mapServicesOfAll f i ds) = (servicesOfAll ds).mapIdx fun k s => f (i + k) s
  | [] => rfl
  | d :: ds => by
    have hplace : ∀ k, i + d.allServices.length + k = i + (k + d.allServices.length) := fun k => by omega
    rw [mapServicesOfAll, servicesOfAll, servicesOfAll, allServices_mapServices f i d,
      servicesOfAll_mapServicesOfAll f (i + d.allServices.length) ds, List.mapIdx_append]
    simp only [hplace]

end

mutual

theorem mapServices_mapServices (f g : Nat → Service → Service) (i : Nat) : ∀ d : Device,
    (d.mapServices f i).mapServices g i = d.mapServices (fun k s => g k (f k s)) i
  | ⟨n, ds⟩ => by
    rw [mapServices, mapServices, mapServices]
    simp only [List.mapIdx_mapIdx, List.length_mapIdx]
    rw [mapServicesOfAll_mapServicesOfAll f g (i + n.services.length) ds]
    rfl

theorem mapServicesOfAll_mapServicesOfAll (f g : Nat → Service → Service) (i : Nat) : ∀ ds : List Device,
    mapServicesOfAll g i (mapServicesOfAll f i ds) = mapServicesOfAll (fun k s => g k (f k s)) i ds
  | [] => rfl
  | d :: ds => by
    rw [mapServicesOfAll, mapServicesOfAll, mapServicesOfAll, mapServices_mapServices f g i d,
      allServices_mapServices, List.length_mapIdx, mapServicesOfAll_mapServicesOfAll f g _ ds]

end

theorem mapServices_identity (f : Nat → Service → Service) (i : Nat) : ∀ d : Device,
    (d.mapServices f i).identity = d.identity
  | ⟨n, ds⟩ => by
    rw [mapServices]
    rfl

/-- Loading the services leaves the identity of a device alone. -/
theorem loadServices_identity (network : Nat → Http.Network) (d : Device) :
    (d.loadServices network).identity = d.identity :=
  mapServices_identity _ 0 d

/-- The device as its own description tells of it. -/
def undescribed (d : Device) : Device :=
  d.mapServices (fun _ s => s.undescribed) 0

theorem undescribed_loadServices (network : Nat → Http.Network) (d : Device) :
    (d.loadServices network).undescribed = d.undescribed := by
  unfold undescribed loadServices
  rw [mapServices_mapServices]
  simp only [Service.undescribed_tried]

theorem allServices_loadServices (network : Nat → Http.Network) (d : Device) :
    (d.loadServices network).allServices = d.allServices.mapIdx fun k s => s.tried (network k) := by
  unfold loadServices
  rw [allServices_mapServices]
  simp only [Nat.zero_add]

theorem loadError?_eq_none_iff {network : Nat → Http.Network} {d : Device} :
    d.loadError? network = none ↔
      ∀ (i : Nat) (s : Service), d.allServices[i]? = some s → s.failure? (network i) = none := by
  unfold loadError? loadFailures
  rw [List.getLast?_eq_none_iff, List.filterMap_eq_nil_iff]
  constructor
  · intro h i s hs
    exact h (s, i) (List.mem_zipIdx_iff_getElem?.2 hs)
  · rintro h ⟨s, i⟩ hs
    exact h i s (List.mem_zipIdx_iff_getElem?.1 hs)

/-- The device with the descriptions of all its services, whose order is that of `allServices`: each
service that has an address for it has been loaded, and nothing else has changed. -/
structure Loaded (w : Nat → Http.Servers) (d loaded : Device) : Prop where
  undescribed : loaded.undescribed = d.undescribed
  services : ∀ (i : Nat) (s : Service), d.allServices[i]? = some s → ∃ t, loaded.allServices[i]? = some t ∧
    if s.scpdUrl = "" then t = s else s.Retrieved (w i) t ∧ t.hasDescription = true

/-- A service of the device has an address for its description, which is not to be had there. -/
def Incomplete (w : Nat → Http.Servers) (d : Device) : Prop :=
  ∃ (i : Nat) (s : Service), d.allServices[i]? = some s ∧ s.scpdUrl ≠ "" ∧ s.Unavailable (w i)

variable {w : Nat → Http.Servers} {d : Device}

theorem loadError?_ne_none_iff : d.loadError? (fun i => (w i).network) ≠ none ↔ d.Incomplete w := by
  rw [ne_eq, loadError?_eq_none_iff]
  unfold Incomplete
  push Not
  refine exists_congr fun i => exists_congr fun s => and_congr_right fun _ => ?_
  exact Service.failure?_ne_none_iff

theorem loaded_loadServices (h : d.loadError? (fun i => (w i).network) = none) :
    d.Loaded w (d.loadServices fun i => (w i).network) where
  undescribed := undescribed_loadServices _ d
  services i s hs := by
    have hfetch := Service.fetch_of_failure?_eq_none (loadError?_eq_none_iff.1 h i s hs)
    refine ⟨s.tried (w i).network, ?_, ?_⟩
    · rw [allServices_loadServices, List.getElem?_mapIdx, hs]
      rfl
    · split
      · rename_i he
        unfold Service.fetch at hfetch
        rw [if_pos he] at hfetch
        exact (Except.ok.inj hfetch).symm
      · rename_i hne
        have hr := (Service.fetch_eq_ok hne).1 hfetch
        obtain ⟨url, text, -, -, hl⟩ := id hr
        exact ⟨hr, (Service.load_described hl).2⟩

end Device

end Upnp
