import Upnp.Proofs.Device.Loading
import Upnp.Proofs.Outcome

/-
Attempts to fetch the descriptions of all services of a device. Each service is tried once, in the order of
`allServices`, whatever became of those before it. An attempt that fails leaves the service as it was, one
that succeeds gives it just the contents of the document; what is reported is the last failure.
-/

namespace Upnp

/-! ## One attempt -/

namespace Service

/-- The second service is the first with the contents of a description, its actions knowing the service. -/
structure DescribedBy (root : Xml.Element) (s t : Service) : Prop where
  version : t.version = .ofRoot root
  actions : t.actions = (root.listed "actionList" "action").map fun e => (Action.ofElement e).attach t.link
  stateVariables : t.stateVariables =
    (root.listed "serviceStateTable" "stateVariable").map StateVariable.ofElement
  hasDescription : t.hasDescription = true
  rest : t.undescribed = s.undescribed

theorem describedBy_describe (s : Service) (root : Xml.Element) : s.DescribedBy root (s.describe root) where
  version := rfl
  actions := List.map_map
  stateVariables := rfl
  hasDescription := rfl
  rest := rfl

/-- What becomes of a service in an attempt to fetch its description, and what comes of that. -/
inductive Attempted (network : Http.Network) (s : Service) : Service → Outcome DescriptionError → Prop
  | noAddress (hs : s.scpdUrl = "") : Attempted network s s (.ok ())
  | noUrl {e : DescriptionError} (hs : s.scpdUrl ≠ "") (hu : s.link.absoluteScpdUrl = .error e) :
    Attempted network s s (.error e)
  | refused {url : Url} {e : Http.Error} (hs : s.scpdUrl ≠ "") (hu : s.link.absoluteScpdUrl = .ok url)
    (hn : network url.text = .error e) : Attempted network s s (.error (.http e))
  | unreadable {url : Url} {text : String} {e : DescriptionError} (hs : s.scpdUrl ≠ "")
    (hu : s.link.absoluteScpdUrl = .ok url) (hn : network url.text = .ok text)
    (hr : readDocument "scpd" text = .error e) : Attempted network s s (.error e)
  | loaded {url : Url} {text : String} {root : Xml.Element} {t : Service} (hs : s.scpdUrl ≠ "")
    (hu : s.link.absoluteScpdUrl = .ok url) (hn : network url.text = .ok text)
    (hr : readDocument "scpd" text = .ok root) (h : s.DescribedBy root t) : Attempted network s t (.ok ())

theorem attempted_attempt (network : Http.Network) (s : Service) :
    s.Attempted network (s.attempt network).1 (s.attempt network).2 := by
  unfold attempt fetch load
  by_cases hs : s.scpdUrl = ""
  · rw [if_pos hs]
    exact .noAddress hs
  rw [if_neg hs]
  cases hu : s.link.absoluteScpdUrl with
  | error e => exact .noUrl hs hu
  | ok url =>
    dsimp only
    cases hn : network url.text with
    | error e => exact .refused hs hu hn
    | ok text =>
      dsimp only
      cases hr : readDocument "scpd" text with
      | error e => exact .unreadable hs hu hn hr
      | ok root => exact .loaded hs hu hn hr (s.describedBy_describe root)

theorem DescribedBy.eq_describe {root : Xml.Element} {s t : Service} (h : s.DescribedBy root t) :
    t = s.describe root := by
  obtain ⟨hversion, hactions, hvariables, hdescription, hrest⟩ := h
  have hlink : t.link = s.link := by
    show t.undescribed.link = s.undescribed.link
    rw [hrest]
  rw [hlink] at hactions
  cases s
  cases t
  simp only [undescribed, Service.mk.injEq, true_and] at hrest
  obtain ⟨rfl, rfl, rfl, rfl, rfl, rfl⟩ := hrest
  cases hversion
  cases hactions
  cases hvariables
  cases hdescription
  unfold describe relink
  rw [List.map_map]
  rfl

/-- What comes of an attempt is what is told of it. -/
theorem Attempted.attempt_eq {network : Http.Network} {s t : Service} {o : Outcome DescriptionError}
    (h : s.Attempted network t o) : s.attempt network = (t, o) := by
  unfold attempt fetch load
  cases h with
  | noAddress hs => rw [if_pos hs]
  | noUrl hs hu => simp only [if_neg hs, hu]
  | refused hs hu hn => simp only [if_neg hs, hu, hn]
  | unreadable hs hu hn hr => simp only [if_neg hs, hu, hn, hr, Except.map]
  | loaded hs hu hn hr h => simp only [if_neg hs, hu, hn, hr, Except.map, h.eq_describe]

theorem attempt_fst (network : Http.Network) (s : Service) : (s.attempt network).1 = s.tried network := by
  unfold attempt tried
  cases s.fetch network <;> rfl

theorem error?_attempt (network : Http.Network) (s : Service) : (s.attempt network).2.error? = s.failure? network := by
  unfold attempt failure?
  cases s.fetch network <;> rfl

/-! ## One attempt after the other -/

/-- What comes of attempts for these services, over networks from number `i` on. -/
def outcomes (network : Nat → Http.Network) (i : Nat) (services : List Service) :
    List (Outcome DescriptionError) :=
  services.mapIdx fun k s => (s.attempt (network (i + k))).2

theorem outcomes_cons (network : Nat → Http.Network) (i : Nat) (s : Service) (services : List Service) :
    outcomes network i (s :: services) = (s.attempt (network i)).2 :: outcomes network (i + 1) services := by
  have hplace : ∀ k, i + 1 + k = i + (k + 1) := fun k => by omega
  simp only [outcomes, List.mapIdx_cons, Nat.add_zero, hplace]

theorem outcomes_append (network : Nat → Http.Network) (i : Nat) (services others : List Service) :
    outcomes network i (services ++ others) =
      outcomes network i services ++ outcomes network (i + services.length) others := by
  have hplace : ∀ k, i + (k + services.length) = i + services.length + k := fun k => by omega
  simp only [outcomes, List.mapIdx_append, hplace]

theorem attemptEach_eq (network : Nat → Http.Network) (i : Nat) (services : List Service) :
    ∃ last, attemptEach network i services =
        (services.mapIdx fun k s => s.tried (network (i + k)), i + services.length, last) ∧
      Outcome.Reports (outcomes network i services) last := by
  induction services generalizing i with
  | nil => exact ⟨.ok (), rfl, .nil⟩
  | cons s services ih =>
    obtain ⟨last, heach, hreports⟩ := ih (i + 1)
    have hplace : ∀ k, i + 1 + k = i + (k + 1) := fun k => by omega
    refine ⟨(s.attempt (network i)).2.andThen last, ?_, ?_⟩
    · rw [attemptEach, heach]
      simp only [attempt_fst, List.mapIdx_cons, List.length_cons, hplace, Nat.add_zero]
    · rw [outcomes_cons]
      exact hreports.cons _

end Service

/-! ## All services of a device -/

namespace Device

mutual

theorem attemptAll_eq (network : Nat → Http.Network) (i : Nat) : ∀ d : Device,
    ∃ last, d.attemptAll network i =
        (d.mapServices (fun k s => s.tried (network k)) i, i + d.allServices.length, last) ∧
      Outcome.Reports (Service.outcomes network i d.allServices) last
  | ⟨n, ds⟩ => by
    obtain ⟨own, hown, hreports⟩ := Service.attemptEach_eq network i n.services
    obtain ⟨last, hall, hlast⟩ := attemptAllOf_eq network (i + n.services.length) ds
    refine ⟨own.andThen last, ?_, ?_⟩
    · rw [attemptAll, hown]
      simp only [hall, mapServices, allServices, List.length_append, Nat.add_assoc]
    · rw [allServices, Service.outcomes_append]
      exact hreports.append hlast

theorem attemptAllOf_eq (network : Nat → Http.Network) (i : Nat) : ∀ ds : List Device,
    ∃ last, attemptAllOf network i ds =
        (mapServicesOfAll (fun k s => s.tried (network k)) i ds, i + (servicesOfAll ds).length, last) ∧
      Outcome.Reports (Service.outcomes network i (servicesOfAll ds)) last
  | [] => ⟨.ok (), rfl, .nil⟩
  | d :: ds => by
    obtain ⟨first, hfirst, hreports⟩ := attemptAll_eq network i d
    obtain ⟨last, hall, hlast⟩ := attemptAllOf_eq network (i + d.allServices.length) ds
    refine ⟨first.andThen last, ?_, ?_⟩
    · rw [attemptAllOf, hfirst]
      simp only [hall, mapServicesOfAll, servicesOfAll, List.length_append, Nat.add_assoc]
    · rw [servicesOfAll, Service.outcomes_append]
      exact hreports.append hlast

end

/-- The device after the attempts, and the last failure, are those that registering a device goes by. -/
theorem loadDescriptions_eq (network : Nat → Http.Network) (d : Device) :
    d.loadDescriptions network = (d.loadServices network, (d.loadError? network).elim (.ok ()) .error) := by
  have hfailures : (Service.outcomes network 0 d.allServices).filterMap Outcome.error? = d.loadFailures network := by
    unfold Service.outcomes loadFailures
    rw [List.mapIdx_eq_zipIdx_map, List.filterMap_map]
    refine List.filterMap_congr fun p _ => ?_
    simp only [Function.comp_apply, Nat.zero_add, Service.error?_attempt]
  obtain ⟨last, hall, hreports⟩ := attemptAll_eq network 0 d
  rw [loadDescriptions, hall, hreports.eq_last, hfailures]
  rfl

theorem loadDescriptions_fst (network : Nat → Http.Network) (d : Device) :
    (d.loadDescriptions network).1 = d.loadServices network := by
  rw [loadDescriptions_eq]

theorem reports_loadDescriptions (network : Nat → Http.Network) (d : Device) :
    Outcome.Reports (Service.outcomes network 0 d.allServices) (d.loadDescriptions network).2 := by
  obtain ⟨last, hall, hreports⟩ := attemptAll_eq network 0 d
  rw [loadDescriptions, hall]
  exact hreports

/-- Loading the descriptions tries every service in its turn, whatever became of the others: each comes to
what an attempt by itself comes to, and apart from their descriptions nothing in the device changes. The
last failure is reported, in the order of `allServices`, and success where there is none. -/
theorem loadDescriptions_attempts (network : Nat → Http.Network) (d : Device) :
    ∃ outcomes : List (Outcome DescriptionError), outcomes.length = d.allServices.length ∧
      Outcome.Reports outcomes (d.loadDescriptions network).2 ∧
      (d.loadDescriptions network).1.undescribed = d.undescribed ∧
      ∀ (i : Nat) (s : Service), d.allServices[i]? = some s → ∃ (t : Service) (o : Outcome DescriptionError),
        (d.loadDescriptions network).1.allServices[i]? = some t ∧ outcomes[i]? = some o ∧
        s.Attempted (network i) t o := by
  refine ⟨Service.outcomes network 0 d.allServices, List.length_mapIdx, reports_loadDescriptions network d, ?_,
    fun i s hs => ?_⟩
  · rw [loadDescriptions_fst, undescribed_loadServices]
  · refine ⟨_, _, ?_, ?_, s.attempted_attempt (network i)⟩
    · rw [loadDescriptions_fst, allServices_loadServices, List.getElem?_mapIdx, hs, Service.attempt_fst]
      rfl
    · rw [Service.outcomes, List.getElem?_mapIdx, hs, Nat.zero_add]
      rfl

/-- A flat with a clock, which has no address for its description, a bell, and a lamp with a switch. -/
def flat : Device :=
  Device.relink
    ⟨{ deviceType := "flat", locationUrl := "http://flat/", services := [
        { serviceType := "clock", serviceId := "" }, { serviceType := "bell", serviceId := "", scpdUrl := "/bell" }] },
      [⟨{ deviceType := "lamp", services := [{ serviceType := "switch", serviceId := "", scpdUrl := "/switch" }] }, []⟩]⟩

/-- The URL of the description of the switch. -/
def switchUrl : Url where
  scheme := "http"
  authority := some { host := some (.domain "flat") }
  path := .segments ["switch"]

/-- Nobody answers but at the third attempt. -/
def flatServers : Nat → Http.Servers
  | 2, _ => some ⟨200, Text.Utf8.encode Service.powerSwitch.description⟩
  | _, _ => none

/-- The bell is reported, and the switch has its action and its variable all the same. -/
theorem loadDescriptions_attempts_flat :
    (flat.loadDescriptions fun i => (flatServers i).network).2 = .error (.http .transport) ∧
    ∃ s t : Service, flat.allServices[2]? = some s ∧ s.serviceType = "switch" ∧
      (flat.loadDescriptions fun i => (flatServers i).network).1.allServices[2]? = some t ∧
      t.actions.map Action.outline = [("SetPower", [("On", .input, "Power")])] ∧
      t.stateVariables = [{ name := "Power", dataType := "boolean" }] ∧
      s.Attempted (flatServers 2).network t (.ok ()) := by
  obtain ⟨clock, hclock, hfine⟩ : ∃ s, flat.allServices[0]? = some s ∧
    (s.attempt (flatServers 0).network).2 = .ok () := ⟨_, rfl, rfl⟩
  obtain ⟨bell, hbell, hrefused⟩ : ∃ s, flat.allServices[1]? = some s ∧
    (s.attempt (flatServers 1).network).2 = .error (.http .transport) := ⟨_, rfl, by decide +kernel⟩
  obtain ⟨switch, hswitch, htype, hne, hurl⟩ : ∃ s, flat.allServices[2]? = some s ∧ s.serviceType = "switch" ∧
    s.scpdUrl ≠ "" ∧ s.link.absoluteScpdUrl = .ok switchUrl := ⟨_, rfl, rfl, by decide, by decide +kernel⟩
  obtain ⟨r, hr, hactions, hvariables⟩ :=
    Service.fetch_powerSwitch (w := flatServers 2) hne hurl (Http.Servers.holds_of_encoded rfl)
  obtain ⟨outcomes, hlength, hreports, -, hattempts⟩ :=
    loadDescriptions_attempts (fun i => (flatServers i).network) flat
  obtain ⟨_, o, -, ho, hfirst⟩ := hattempts 0 clock hclock
  obtain ⟨_, p, -, hp, hsecond⟩ := hattempts 1 bell hbell
  obtain ⟨t, q, ht, hq, hthird⟩ := hattempts 2 switch hswitch
  have hloaded : switch.attempt (flatServers 2).network = (r, .ok ()) := by
    unfold Service.attempt
    rw [hr]
  cases hloaded.symm.trans hthird.attempt_eq
  obtain rfl : .ok () = o := hfine.symm.trans (congrArg Prod.snd hfirst.attempt_eq)
  obtain rfl : .error (.http .transport) = p := hrefused.symm.trans (congrArg Prod.snd hsecond.attempt_eq)
  obtain ⟨a, b, c, rfl⟩ := List.length_eq_three.1 hlength
  cases ho
  cases hp
  cases hq
  exact ⟨hreports.eq_last, switch, r, hswitch, htype, ht, hactions, hvariables, hthird⟩

end Device

end Upnp
