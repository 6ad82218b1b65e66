import Mathlib.Data.List.Infix
import Mathlib.Data.Nat.Init
import Upnp.Control.Discovery
import Upnp.Proofs.Device.Loading

/-
Discovery over whole runs. Events come one after the other, each with servers of its own behind it, and
an event that makes a device known has it registered. Whatever the servers answer, the event is passed on
to the listener; the registry takes in the device just when everything about it could be fetched, and is
left as it was when anything failed; and no device that is there ever goes or gives way to another.
-/

namespace Upnp

/-! ## Registering a device -/

namespace Device

/-- The device is described at a location. -/
def DescribedAt (w : Http.Servers) (location : String) (d : Device) : Prop :=
  ∃ text e, w.Holds location text ∧ ofDescription text = .ok e ∧ d = e.setLocationUrl location

/-- Something about the device at a location cannot be fetched: server 0 is asked for its description
and server `i + 1` for that of the service at place `i`. -/
inductive FailsAt (w : Nat → Http.Servers) (location : String) : Prop
  | refused (h : (w 0).Refuses location)
  | undescribed {text : String} {e : DescriptionError} (h : (w 0).Holds location text)
    (hd : ofDescription text = .error e)
  | incomplete {d : Device} (h : DescribedAt (w 0) location d) (hd : d.Incomplete fun i => w (i + 1))

variable {w : Http.Servers} {location : String} {d : Device}

theorem fetch_eq_ok : fetch w.network location = .ok d ↔ DescribedAt w location d := by
  unfold fetch ofFetched DescribedAt
  constructor
  · intro h
    cases hn : w.network location with
    | error e =>
      rw [hn] at h
      cases h
    | ok text =>
      simp only [hn] at h
      cases ho : ofDescription text with
      | error e =>
        rw [ho] at h
        cases h
      | ok e =>
        rw [ho] at h
        exact ⟨text, e, Http.Servers.network_eq_ok.1 hn, ho, (Except.ok.inj h).symm⟩
  · rintro ⟨text, e, hw, ho, rfl⟩
    simp only [Http.Servers.network_eq_ok.2 hw, ho]
    rfl

theorem FailsAt.of_fetch {w : Nat → Http.Servers} {e : DescriptionError} (h : fetch (w 0).network location = .error e) :
    FailsAt w location := by
  unfold fetch ofFetched at h
  cases hn : (w 0).network location with
  | error e => exact .refused (Http.Servers.network_eq_error.1 ⟨e, hn⟩)
  | ok text =>
    simp only [hn] at h
    cases ho : ofDescription text with
    | error e => exact .undescribed (Http.Servers.network_eq_ok.1 hn) ho
    | ok e =>
      rw [ho] at h
      cases h

theorem DescribedAt.unique {e : Device} (h : DescribedAt w location d) (he : DescribedAt w location e) : d = e :=
  Except.ok.inj ((fetch_eq_ok.2 h).symm.trans (fetch_eq_ok.2 he))

/-- A device that is described can only fail by its services. -/
theorem FailsAt.incomplete_of_described {w : Nat → Http.Servers} (hf : FailsAt w location)
    (h : DescribedAt (w 0) location d) : d.Incomplete fun i => w (i + 1) := by
  have hok := fetch_eq_ok.2 h
  unfold fetch ofFetched at hok
  cases hf with
  | refused hr =>
    obtain ⟨e, he⟩ := Http.Servers.network_eq_error.2 hr
    simp only [he] at hok
    cases hok
  | undescribed ht hd =>
    simp only [Http.Servers.network_eq_ok.2 ht, hd] at hok
    cases hok
  | incomplete he hd => exact h.unique he ▸ hd

end Device

namespace Registration

theorem stepTimes_ended (network : Nat → Http.Network) (result : Except DescriptionError Bool) (r : Registry) :
    ∀ n, stepTimes network n (.ended result) r = (.ended result, r)
  | 0 => rfl
  | n + 1 => stepTimes_ended network result r n

variable {network : Nat → Http.Network} {location : String} {d : Device} {r : Registry}

theorem stepTimes_started_of_error {e : DescriptionError} (h : Device.fetch (network 0) location = .error e)
    (n : Nat) : stepTimes network (n + 1) (.started location) r = (.ended (.error e), r) := by
  rw [stepTimes, step, h]
  exact stepTimes_ended ..

theorem stepTimes_started_of_ok (h : Device.fetch (network 0) location = .ok d) (n : Nat) :
    stepTimes network (n + 1) (.started location) r = stepTimes network n (.fetched d) r := by
  rw [stepTimes, step, h]

theorem stepTimes_fetched_of_contains (h : r.contains d = true) (n : Nat) :
    stepTimes network (n + 1) (.fetched d) r = (.ended (.ok false), r) := by
  rw [stepTimes, step, if_pos h]
  exact stepTimes_ended ..

theorem stepTimes_fetched_of_not_contains (h : r.contains d = false) (n : Nat) :
    stepTimes network (n + 1) (.fetched d) r = stepTimes network n (.unregistered d) r := by
  rw [stepTimes, step, if_neg (h ▸ Bool.false_ne_true)]

theorem stepTimes_unregistered_of_some {e : DescriptionError}
    (h : d.loadError? (fun i => network (i + 1)) = some e) (n : Nat) :
    stepTimes network (n + 1) (.unregistered d) r = (.ended (.error e), r) := by
  rw [stepTimes, step, h]
  exact stepTimes_ended ..

theorem stepTimes_unregistered_of_none (h : d.loadError? (fun i => network (i + 1)) = none) (n : Nat) :
    stepTimes network (n + 1) (.unregistered d) r =
      stepTimes network n (.loaded (d.loadServices fun i => network (i + 1))) r := by
  rw [stepTimes, step, h]

end Registration

namespace Registry

/-- What a call without other calls beside it comes to. -/
theorem register_eq (network : Nat → Http.Network) (location : String) (r : Registry) :
    r.register network location =
      match Device.fetch (network 0) location with
      | .error e => (.error e, r)
      | .ok d =>
        if r.contains d then (.ok false, r)
        else
          match d.loadError? fun i => network (i + 1) with
          | some e => (.error e, r)
          | none =>
            let loaded := d.loadServices fun i => network (i + 1)
            (.ok (r.accepts loaded), r.add loaded) := by
  rw [register, Registration.steps]
  cases hf : Device.fetch (network 0) location with
  | error e =>
    rw [Registration.stepTimes_started_of_error hf]
    rfl
  | ok d =>
    rw [Registration.stepTimes_started_of_ok hf]
    simp only
    cases hc : r.contains d with
    | true =>
      rw [Registration.stepTimes_fetched_of_contains hc, if_pos rfl]
      rfl
    | false =>
      rw [Registration.stepTimes_fetched_of_not_contains hc, if_neg Bool.false_ne_true]
      cases hl : d.loadError? fun i => network (i + 1) with
      | some e =>
        rw [Registration.stepTimes_unregistered_of_some hl]
        rfl
      | none =>
        rw [Registration.stepTimes_unregistered_of_none hl]
        rfl

theorem register_snd (network : Nat → Http.Network) (location : String) (r : Registry) :
    (r.register network location).2 =
      match Device.fetch (network 0) location with
      | .error _ => r
      | .ok d =>
        if r.contains d then r
        else
          match d.loadError? fun i => network (i + 1) with
          | some _ => r
          | none => r.add (d.loadServices fun i => network (i + 1)) := by
  rw [register_eq]
  cases Device.fetch (network 0) location with
  | error e => rfl
  | ok d =>
    simp only
    split
    · rfl
    · cases d.loadError? fun i => network (i + 1) <;> rfl

variable {w : Nat → Http.Servers} {location : String} {r : Registry}

/-- A failure of any part leaves the registry as it was. -/
theorem register_of_fails (h : Device.FailsAt w location) :
    (r.register (fun i => (w i).network) location).2 = r := by
  rw [register_snd]
  cases hf : Device.fetch (w 0).network location with
  | error e => rfl
  | ok d =>
    have hi := h.incomplete_of_described (Device.fetch_eq_ok.1 hf)
    obtain ⟨e, he⟩ := Option.ne_none_iff_exists'.1 (Device.loadError?_ne_none_iff.2 hi)
    simp only [he, ite_self]

/-- A device that is fetched completely is added, if its identity allows it. -/
theorem register_of_described {d : Device} (h : Device.DescribedAt (w 0) location d)
    (hi : ¬ d.Incomplete fun i => w (i + 1)) : ∃ loaded, d.Loaded (fun i => w (i + 1)) loaded ∧
      loaded.identity = d.identity ∧ (r.register (fun i => (w i).network) location).2 = r.add loaded := by
  have hload : d.loadError? (fun i => (w (i + 1)).network) = none := by
    by_contra hne
    exact hi (Device.loadError?_ne_none_iff.1 hne)
  refine ⟨_, Device.loaded_loadServices hload, Device.loadServices_identity _ d, ?_⟩
  rw [register_snd, Device.fetch_eq_ok.2 h]
  simp only [hload]
  split
  · rename_i hc
    refine (add_of_not_accepts ?_).symm
    by_contra ha
    refine (accepts_iff.1 (Bool.not_eq_false _ ▸ ha)).2 ?_
    rw [Device.loadServices_identity]
    exact contains_iff.1 hc
  · rfl

end Registry

/-! ## Events -/

/-- The event makes a device known and tells where it is described. -/
inductive DiscoveryEvent.MakesKnown : DiscoveryEvent → String → Prop
  | notify {p : Ssdp.Packet} {location : String} (nt : p.get? .nt = some "upnp:rootdevice")
    (nts : p.get? .nts ≠ some "ssdp:byebye") (h : p.get? .location = some location) : MakesKnown (.notify p) location
  | response {p : Ssdp.Packet} {location : String} (h : p.get? .location = some location) :
    MakesKnown (.response p) location

theorem DiscoveryEvent.location?_eq_some {e : DiscoveryEvent} {location : String} :
    e.location? = some location ↔ e.MakesKnown location := by
  have hhas : ∀ (p : Ssdp.Packet) h value, p.has h value = true ↔ p.get? h = some value := fun p h value => by
    unfold Ssdp.Packet.has Ssdp.Packet.hasHeader Ssdp.Packet.get?
    exact beq_iff_eq
  cases e with
  | notify p =>
    unfold location?
    constructor
    · intro h
      simp only at h
      split at h
      · rename_i hp
        rw [Bool.and_eq_true, Bool.not_eq_true', ← Bool.not_eq_true] at hp
        exact .notify ((hhas _ _ _).1 hp.1) (mt (hhas _ _ _).2 hp.2) h
      · cases h
    · rintro ⟨nt, nts, h⟩
      have hroot : p.isRootNotify = true := (hhas _ _ _).2 nt
      have hbye : p.isByebye = false := Bool.not_eq_true _ ▸ mt (hhas _ _ _).1 nts
      simp only [hroot, hbye, h, Bool.not_false, Bool.and_self, if_true]
  | search p => exact ⟨fun h => (nomatch h), fun h => (nomatch h)⟩
  | response p => exact ⟨.response, fun | .response h => h⟩

/-- What handling an event may do to the registry. -/
structure DiscoveryEvent.Effect (e : DiscoveryEvent) (w : Nat → Http.Servers) (r r' : Registry) : Prop where
  /-- If anything changes, the device that the event makes known has come in, loaded completely. -/
  change : r' ≠ r → ∃ location d loaded, e.MakesKnown location ∧ Device.DescribedAt (w 0) location d ∧
    d.Loaded (fun i => w (i + 1)) loaded ∧ IsComplete loaded.identity ∧ loaded.identity ∉ r.identities ∧
    r'.devices = r.devices ++ [loaded]
  failure : ∀ location, e.MakesKnown location → Device.FailsAt w location → r' = r
  /-- A new device about which everything can be fetched does come in. -/
  arrival : ∀ location d, e.MakesKnown location → Device.DescribedAt (w 0) location d →
    ¬ d.Incomplete (fun i => w (i + 1)) → IsComplete d.identity → d.identity ∉ r.identities → r' ≠ r

namespace Discovery

theorem handle_effect (w : Nat → Http.Servers) (d : Discovery) (e : DiscoveryEvent) :
    e.Effect w d.registry (d.handle (fun i => (w i).network) e).1.registry := by
  have hknown : ∀ location, e.MakesKnown location → (d.handle (fun i => (w i).network) e).1.registry =
      (d.registry.register (fun i => (w i).network) location).2 := fun location h => by
    unfold handle
    rw [DiscoveryEvent.location?_eq_some.2 h]
  constructor
  · intro hne
    cases hl : e.location? with
    | none =>
      refine absurd ?_ hne
      unfold handle
      rw [hl]
    | some location =>
      have hk := DiscoveryEvent.location?_eq_some.1 hl
      rw [hknown location hk] at hne ⊢
      have hfails : ¬ Device.FailsAt w location := fun h => hne (Registry.register_of_fails h)
      cases hf : Device.fetch (w 0).network location with
      | error e => exact absurd (.of_fetch hf) hfails
      | ok x =>
        have hx := Device.fetch_eq_ok.1 hf
        -- something has changed, so nothing failed
        obtain ⟨loaded, hloaded, -, hr⟩ := Registry.register_of_described (r := d.registry) hx
          fun hi => hfails (.incomplete hx hi)
        rw [hr] at hne ⊢
        have ha : d.registry.accepts loaded = true := by
          by_contra ha
          exact hne (Registry.add_of_not_accepts (Bool.not_eq_true _ ▸ ha))
        obtain ⟨hc, hnew⟩ := Registry.accepts_iff.1 ha
        exact ⟨location, x, loaded, hk, hx, hloaded, hc, hnew, by rw [Registry.add_of_accepts ha]⟩
  · intro location hk hf
    rw [hknown location hk]
    exact Registry.register_of_fails hf
  · intro location x hk hx hi hc hnew heq
    obtain ⟨loaded, -, hid, hr⟩ := Registry.register_of_described (r := d.registry) hx hi
    rw [hknown location hk, hr, Registry.add_of_accepts (Registry.accepts_iff.2 (hid ▸ ⟨hc, hnew⟩))] at heq
    have hlen := congrArg (fun r : Registry => r.devices.length) heq
    simp at hlen

end Discovery

/-- Nothing goes from the registry, and what is there keeps its place. -/
theorem DiscoveryEvent.Effect.devices_grow {e : DiscoveryEvent} {w : Nat → Http.Servers} {r r' : Registry}
    (h : e.Effect w r r') : r.devices <+: r'.devices := by
  by_cases hr : r' = r
  · rw [hr]
  · obtain ⟨_, _, loaded, _, _, _, _, _, hd⟩ := h.change hr
    exact ⟨[loaded], hd.symm⟩

/-! ## Runs -/

namespace Discovery

/-- An event with the servers that are asked while it is handled. -/
abbrev Turn := DiscoveryEvent × (Nat → Http.Servers)

def runOver (d : Discovery) (turns : List Turn) : Discovery × List DiscoveryEvent :=
  d.run (turns.map fun turn => (turn.1, fun i => (turn.2 i).network))

/-- The registry after events. -/
def registryAfter (d : Discovery) (turns : List Turn) : Registry :=
  (d.runOver turns).1.registry

theorem run_concat (d : Discovery) (events : List (DiscoveryEvent × (Nat → Http.Network)))
    (last : DiscoveryEvent × (Nat → Http.Network)) : d.run (events ++ [last]) =
      (((d.run events).1.handle last.2 last.1).1, (d.run events).2 ++ ((d.run events).1.handle last.2 last.1).2) := by
  induction events generalizing d with
  | nil => simp only [List.nil_append, run, List.append_nil]
  | cons first events ih =>
    simp only [List.cons_append, run]
    rw [ih]
    simp only [List.append_assoc]

variable (d : Discovery) (turns : List Turn)

theorem runOver_concat (turn : Turn) : d.runOver (turns ++ [turn]) =
    (((d.runOver turns).1.handle (fun i => (turn.2 i).network) turn.1).1,
      (d.runOver turns).2 ++ ((d.runOver turns).1.handle (fun i => (turn.2 i).network) turn.1).2) := by
  unfold runOver
  rw [List.map_append, List.map_singleton, run_concat]

/-- The listener stays, and hears every event as it comes. -/
theorem runOver_heard : (d.runOver turns).1.hasListener = d.hasListener ∧
    (d.runOver turns).2 = if d.hasListener then turns.map Prod.fst else [] := by
  induction turns using List.reverseRecOn with
  | nil => exact ⟨rfl, (ite_self _).symm⟩
  | append_singleton turns turn ih =>
    obtain ⟨hl, hh⟩ := ih
    rw [runOver_concat]
    refine ⟨hl, ?_⟩
    rw [hh, handle, hl, List.map_append]
    cases d.hasListener <;> rfl

theorem registryAfter_effect {n : Nat} {turn : Turn} (h : turns[n]? = some turn) :
    turn.1.Effect turn.2 (d.registryAfter (turns.take n)) (d.registryAfter (turns.take (n + 1))) := by
  rw [List.take_add_one, h, Option.toList_some]
  unfold registryAfter
  rw [runOver_concat]
  exact handle_effect ..

theorem registryAfter_devices_grow {m n : Nat} (h : m ≤ n) :
    (d.registryAfter (turns.take m)).devices <+: (d.registryAfter (turns.take n)).devices := by
  induction n, h using Nat.le_induction with
  | base => exact List.prefix_refl _
  | succ n hn ih =>
    cases ht : turns[n]? with
    | none =>
      have hall := List.getElem?_eq_none_iff.1 ht
      rw [List.take_of_length_le hall] at ih
      rwa [List.take_of_length_le (hall.trans n.le_succ)]
    | some turn => exact ih.trans (d.registryAfter_effect turns ht).devices_grow

/-- Whatever events come and whatever the servers behind them answer: the listener hears every event once
and in order; an event does no more to the registry than to let the device in that it makes known, with
the descriptions of all its services, and nothing if any part of that fails; and what was found is found
ever after. -/
theorem runOver_keeps : ((d.runOver turns).2 = if d.hasListener then turns.map Prod.fst else []) ∧
    (∀ (n : Nat) (turn : Turn), turns[n]? = some turn →
      turn.1.Effect turn.2 (d.registryAfter (turns.take n)) (d.registryAfter (turns.take (n + 1)))) ∧
    ∀ m n, m ≤ n → (d.registryAfter (turns.take m)).devices <+: (d.registryAfter (turns.take n)).devices ∧
      ∀ deviceType udn x, (d.registryAfter (turns.take m)).find? deviceType udn = some x →
        (d.registryAfter (turns.take n)).find? deviceType udn = some x := by
  refine ⟨(d.runOver_heard turns).2, fun n turn h => d.registryAfter_effect turns h, fun m n h => ?_⟩
  have hgrow := d.registryAfter_devices_grow turns h
  exact ⟨hgrow, fun deviceType udn x hx => Registry.find?_of_prefix hgrow hx⟩

/-- A lamp with one service, as its description tells of it. -/
def lamp : Device :=
  Device.relink ⟨{ deviceType := "lamp", udn := "uuid:1", services := [{ serviceType := "", serviceId := "", scpdUrl := "/s" }] }, []⟩

def lampDescription : String :=
  "<root><device><deviceType>lamp</deviceType><UDN>uuid:1</UDN>" ++
  "<serviceList><service><SCPDURL>/s</SCPDURL></service></serviceList></device></root>"

/-- Servers that answer first with the description of the lamp and then with that of its service. -/
def lampServers : Nat → Http.Servers
  | 0, _ => some ⟨200, Text.Utf8.encode lampDescription⟩
  | _, _ => some ⟨200, Text.Utf8.encode Service.powerSwitch.description⟩

theorem lamp_described : Device.DescribedAt (lampServers 0) "http://lamp/" (lamp.setLocationUrl "http://lamp/") := by
  have hread : Device.ofDescription lampDescription = .ok lamp := by decide +kernel
  exact ⟨lampDescription, lamp, Http.Servers.holds_of_encoded rfl, hread, rfl⟩

/-- The URL of the description of the service. -/
def lampServiceUrl : Url where
  scheme := "http"
  authority := some { host := some (.domain "lamp") }
  path := .segments ["s"]

theorem fetch_lampServers {i : Nat} {s : Service} (h : (lamp.setLocationUrl "http://lamp/").allServices[i]? = some s) :
    ∃ t, s.fetch (lampServers (i + 1)).network = .ok t ∧
      t.actions.map Action.outline = [("SetPower", [("On", .input, "Power")])] ∧
      t.stateVariables = [{ name := "Power", dataType := "boolean" }] := by
  obtain ⟨hne, hurl⟩ : s.scpdUrl ≠ "" ∧ s.link.absoluteScpdUrl = .ok lampServiceUrl := by
    have hall : ∀ s ∈ (lamp.setLocationUrl "http://lamp/").allServices,
        s.scpdUrl ≠ "" ∧ s.link.absoluteScpdUrl = .ok lampServiceUrl := by decide +kernel
    exact hall s (List.mem_of_getElem? h)
  exact Service.fetch_powerSwitch hne hurl (Http.Servers.holds_of_encoded rfl)

theorem lamp_complete : ¬ (lamp.setLocationUrl "http://lamp/").Incomplete fun i => lampServers (i + 1) := by
  rintro ⟨i, s, hs, hne, hu⟩
  obtain ⟨t, ht, -⟩ := fetch_lampServers hs
  obtain ⟨e, he⟩ := (Service.fetch_eq_error hne).2 hu
  cases ht.symm.trans he

/-- A lamp announces itself, somebody searches, and a device answers whose description is not to be had. -/
def lampTurns : List Turn := [
  (.notify { headers := [("NT", "upnp:rootdevice"), ("LOCATION", "http://lamp/")] }, lampServers),
  (.search {}, fun _ _ => none),
  (.response { headers := [("LOCATION", "http://hub/")] }, fun _ _ => none)]

/-- All three are heard; the lamp comes in, with the action and the variable that its service describes, and the
other device changes nothing. -/
theorem runOver_keeps_lamp :
    let d : Discovery := { hasListener := true }
    (d.runOver lampTurns).2 = lampTurns.map Prod.fst ∧
    (∃ x t, (lamp.setLocationUrl "http://lamp/").Loaded (fun i => lampServers (i + 1)) x ∧
      x.allServices[0]? = some t ∧ t.actions.map Action.outline = [("SetPower", [("On", .input, "Power")])] ∧
      t.stateVariables = [{ name := "Power", dataType := "boolean" }] ∧
      (d.registryAfter (lampTurns.take 1)).devices = [x] ∧
      [x] <+: (d.registryAfter (lampTurns.take 3)).devices) ∧
    d.registryAfter (lampTurns.take 3) = d.registryAfter (lampTurns.take 2) := by
  intro d
  have hknown : (lampTurns[0].1).MakesKnown "http://lamp/" := .notify (by decide) (by decide) (by decide)
  obtain ⟨hheard, heffect, hkept⟩ := d.runOver_keeps lampTurns
  refine ⟨hheard, ?_, ?_⟩
  · have hnew := (heffect 0 _ rfl).arrival _ _ hknown lamp_described lamp_complete
      ⟨by decide, by decide⟩ (by decide)
    obtain ⟨location, e, x, hk, he, hx, -, -, hd⟩ := (heffect 0 _ rfl).change hnew
    have hlocation : location = "http://lamp/" :=
      Option.some.inj ((DiscoveryEvent.location?_eq_some.2 hk).symm.trans (DiscoveryEvent.location?_eq_some.2 hknown))
    subst hlocation
    obtain rfl := he.unique lamp_described
    obtain ⟨s, hs, hne⟩ : ∃ s, (lamp.setLocationUrl "http://lamp/").allServices[0]? = some s ∧ s.scpdUrl ≠ "" :=
      ⟨_, rfl, by decide⟩
    obtain ⟨t, ht, hread⟩ := hx.services 0 s hs
    rw [if_neg hne] at hread
    obtain ⟨r, hr, hactions, hvariables⟩ := fetch_lampServers hs
    cases hr.symm.trans ((Service.fetch_eq_ok hne).2 hread.1)
    have hgrow := (hkept 1 3 (by decide)).1
    rw [hd] at hgrow
    exact ⟨x, t, hx, ht, hactions, hvariables, hd, hgrow⟩
  · exact (heffect 2 _ rfl).failure "http://hub/" (.response (by decide)) (.refused (.silence rfl))

end Discovery

end Upnp
