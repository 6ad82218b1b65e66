import Upnp.Device.Revision
import Upnp.Serving.Responder
import Upnp.Proofs.Device.Entries

/-
What of a description is served. The description lists the services of the whole tree, while
requests are routed among the services of the root device alone: on distinct paths a listed service
answers to its addresses if it is one of the root's own, and requests for any other are foreign.
-/

namespace Upnp

/-! ## Finding by a key -/

/-- Among entries of distinct keys, looking in the first part for the key of any of them finds just
those of the first part. -/
theorem find?_key_append {α : Type} [DecidableEq α] (key : α → String) {xs ys : List α} {x : α}
    (hn : ((xs ++ ys).map key).Nodup) (hx : x ∈ xs ++ ys) :
    xs.find? (fun y => key y == key x) = if x ∈ xs then some x else none := by
  induction xs with
  | nil => rfl
  | cons y xs ih =>
    rw [List.cons_append, List.map_cons, List.nodup_cons] at hn
    rw [List.find?_cons]
    rcases List.mem_cons.1 hx with rfl | hx
    · simp
    · have hne : key y ≠ key x := fun he => hn.1 (he ▸ List.mem_map_of_mem hx)
      have hyx : x ≠ y := fun he => hne (he ▸ rfl)
      rw [beq_eq_false_iff_ne.2 hne, ih hn.2 hx]
      simp only [List.mem_cons, hyx, false_or]

namespace Device

/-- The description and the services of the whole tree have addresses of their own. -/
def DistinctPaths (d : Device) : Prop :=
  (d.node.descriptionUrl :: (d.allServices.map Service.scpdUrl ++ d.allServices.map Service.controlUrl)).Nodup

instance (d : Device) : Decidable d.DistinctPaths :=
  inferInstanceAs (Decidable (List.Nodup _))

theorem allServices_eq (d : Device) : d.allServices = d.node.services ++ servicesOfAll d.embedded := by
  cases d
  rw [allServices]

theorem findService_toOption (d : Device) (key : String) (p : Service → Bool) :
    (d.findService key p).toOption = d.node.services.find? p := by
  unfold findService
  cases d.node.services.find? p <;> rfl

theorem serviceByScpdUrl_of_distinct {d : Device} (hd : d.DistinctPaths) {s : Service} (hs : s ∈ d.allServices) :
    (d.serviceByScpdUrl s.scpdUrl).toOption = if s ∈ d.node.services then some s else none := by
  have hn := (List.nodup_append.1 (List.nodup_cons.1 hd).2).1
  rw [allServices_eq] at hn hs
  exact (findService_toOption d _ _).trans (find?_key_append Service.scpdUrl hn hs)

theorem serviceByControlUrl_of_distinct {d : Device} (hd : d.DistinctPaths) {s : Service} (hs : s ∈ d.allServices) :
    (d.serviceByControlUrl s.controlUrl).toOption = if s ∈ d.node.services then some s else none := by
  have hn := (List.nodup_append.1 (List.nodup_cons.1 hd).2).2.1
  rw [allServices_eq] at hn hs
  exact (findService_toOption d _ _).trans (find?_key_append Service.controlUrl hn hs)

theorem scpdUrl_ne_descriptionUrl {d : Device} (hd : d.DistinctPaths) {s : Service} (hs : s ∈ d.allServices) :
    s.scpdUrl ≠ d.node.descriptionUrl := fun he =>
  (List.nodup_cons.1 hd).1 (List.mem_append_left _ (he ▸ List.mem_map_of_mem hs))

end Device

/-! ## Requests for listed services -/

namespace Responder

/-- The action that a request names in its action header. -/
def actionOf? (request : Http.Request) : Option String :=
  (request.header? Http.actionHeader).bind actionName?

theorem route?_eq (r : Responder) (request : Http.Request) : r.route? request =
    (r.device.serviceByControlUrl request.path).toOption.bind fun s =>
      (actionOf? request).bind fun name => (s.action name).toOption := by
  unfold route? actionOf?
  generalize (r.device.serviceByControlUrl request.path).toOption = service
  generalize request.header? Http.actionHeader = header
  cases service with
  | none => rfl
  | some s =>
    show (header.bind fun h => (actionName? h).bind fun name => (s.action name).toOption) = _
    rw [Option.bind_some, Option.bind_assoc]

theorem descriptionAt?_of_distinct {r : Responder} (hd : r.device.DistinctPaths) {s : Service}
    (hs : s ∈ r.device.allServices) :
    r.descriptionAt? s.scpdUrl = if s ∈ r.device.node.services then some s.description else none := by
  unfold descriptionAt?
  rw [if_neg (Device.scpdUrl_ne_descriptionUrl hd hs), Device.serviceByScpdUrl_of_distinct hd hs]
  split <;> rfl

theorem route?_of_distinct {r : Responder} (hd : r.device.DistinctPaths) {s : Service}
    (hs : s ∈ r.device.allServices) (request : Http.Request) (hp : request.path = s.controlUrl) {name : String}
    (hn : actionOf? request = some name) {a : Action} (ha : s.action name = .ok a) :
    r.route? request = if s ∈ r.device.node.services then some a else none := by
  rw [route?_eq, hp, Device.serviceByControlUrl_of_distinct hd hs, hn]
  split
  · rw [Option.bind_some, Option.bind_some, ha]
    rfl
  · rfl

/-- Every listed service has its entry in the description, but only a service of the root device
itself is served: its description at its address and its actions at its control address. Requests
for the services of embedded devices are foreign, at whatever depth. -/
theorem dispatch_listed {r : Responder} (hd : r.device.DistinctPaths) {s : Service}
    (hs : s ∈ r.device.allServices) (hasListener : Bool) :
    s.toEntry ∈ Device.entries r.device.toRoot ∧
    (∀ headers body, r.dispatch hasListener ⟨"GET", s.scpdUrl, headers, body⟩ =
      if s ∈ r.device.node.services then .reply (r.xmlResponse 200 s.description) else .foreign) ∧
    ∀ headers body name a, actionOf? ⟨"POST", s.controlUrl, headers, body⟩ = some name → s.action name = .ok a →
      r.route? ⟨"POST", s.controlUrl, headers, body⟩ = (if s ∈ r.device.node.services then some a else none) ∧
      r.dispatch hasListener ⟨"POST", s.controlUrl, headers, body⟩ =
        if s ∈ r.device.node.services then r.dispatchAction hasListener a body else .foreign := by
  refine ⟨?_, fun headers body => ?_, fun headers body name a hn ha => ?_⟩
  · rw [Device.entries_toRoot]
    exact List.mem_map_of_mem hs
  · have hdoc := descriptionAt?_of_distinct hd hs
    unfold dispatch
    by_cases hm : s ∈ r.device.node.services
    · rw [if_pos hm] at hdoc ⊢
      simp only [hdoc]
    · rw [if_neg hm] at hdoc ⊢
      simp only [hdoc]
  · have hroute := route?_of_distinct hd hs ⟨"POST", s.controlUrl, headers, body⟩ rfl hn ha
    refine ⟨hroute, ?_⟩
    unfold dispatch
    by_cases hm : s ∈ r.device.node.services
    · rw [if_pos hm] at hroute ⊢
      simp only [hroute]
    · rw [if_neg hm] at hroute ⊢
      simp only [hroute]

/-! ## A tree with a service in an embedded device -/

/-- A lamp with one service. -/
def lamp : Device :=
  ((Device.named "urn:lamp" "Lamp").setUdn "uuid:lamp").addService
    { serviceType := "urn:x:switch:1", serviceId := "switch", actions := [{ name := "Set" }], hasDescription := true }

/-- A hub with a service of its own and the lamp embedded in it, completed for serving. -/
def hub : Responder where
  device := (((((Device.named "urn:hub" "Hub").setUdn "uuid:hub").addService
    { serviceType := "urn:x:meter:1", serviceId := "meter", actions := [{ name := "Read" }], hasDescription := true }
    ).addEmbedded lamp).revise (fun _ => "") 0).1
  server := ""
  port := 80

theorem hub_distinctPaths : hub.device.DistinctPaths := by
  decide

/-- The service of the hub itself. -/
def hubMeter : Service :=
  hub.device.allServices.get ⟨0, by decide⟩

/-- The service of the embedded lamp. -/
def lampSwitch : Service :=
  hub.device.allServices.get ⟨1, by decide⟩

def readHeaders : List (String × Text.Utf8.Octets) :=
  [("SOAPACTION", Text.Utf8.encode "\"urn:x:meter:1#Read\"")]

def setHeaders : List (String × Text.Utf8.Octets) :=
  [("SOAPACTION", Text.Utf8.encode "\"urn:x:switch:1#Set\"")]

/-- The hub's own service is served. -/
theorem dispatch_listed_hubMeter :
    hub.device.DistinctPaths ∧ hubMeter ∈ hub.device.allServices ∧
    hubMeter.toEntry ∈ Device.entries hub.device.toRoot ∧
    hub.dispatch true ⟨"GET", hubMeter.scpdUrl, [], []⟩ = .reply (hub.xmlResponse 200 hubMeter.description) ∧
    ∃ a, hubMeter.action "Read" = .ok a ∧ hub.route? ⟨"POST", hubMeter.controlUrl, readHeaders, []⟩ = some a := by
  have hm : hubMeter ∈ hub.device.allServices := List.get_mem _ _
  have hown : hubMeter ∈ hub.device.node.services := by decide
  obtain ⟨hentry, hget, hpost⟩ := dispatch_listed hub_distinctPaths hm true
  refine ⟨hub_distinctPaths, hm, hentry, ?_, ⟨_, rfl, ?_⟩⟩
  · rw [hget, if_pos hown]
  · rw [(hpost readHeaders [] "Read" _ (by decide) rfl).1, if_pos hown]

/-- The lamp's service is listed in the description, on paths that are no others', but asking for
its description or for its action leads nowhere. -/
theorem lampSwitch_listed_not_served :
    hub.device.DistinctPaths ∧ lampSwitch ∈ hub.device.allServices ∧
    lampSwitch.toEntry ∈ Device.entries hub.device.toRoot ∧
    hub.descriptionAt? lampSwitch.scpdUrl = none ∧
    actionOf? ⟨"POST", lampSwitch.controlUrl, setHeaders, []⟩ = some "Set" ∧
    (lampSwitch.action "Set").toOption.isSome ∧
    hub.route? ⟨"POST", lampSwitch.controlUrl, setHeaders, []⟩ = none := by
  have hm : lampSwitch ∈ hub.device.allServices := List.get_mem _ _
  refine ⟨hub_distinctPaths, hm, ?_, by decide, by decide, by decide, by decide⟩
  rw [Device.entries_toRoot]
  exact List.mem_map_of_mem hm

end Responder

end Upnp
