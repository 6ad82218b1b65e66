import Upnp.Control.Point
import Upnp.Proofs.Control.Discovery

/-
Adding the device at a location. A call that fails changes nothing, and a call that succeeds tells whether it
has added the device. That it has not does not mean that the device was there: where a description gives no
type or no unique name, the call succeeds as well, and the device is not found afterwards.
-/

namespace Upnp

namespace Registry

/-! ## How a registration ends -/

/-- How the registration of the device at a location ends, and the registry that it leaves. -/
inductive Registering (w : Nat → Http.Servers) (location : String) (r : Registry) :
    Except DescriptionError Bool → Registry → Prop
  | failed {e : DescriptionError} (h : Device.FailsAt w location)
    (hnew : ∀ d, Device.DescribedAt (w 0) location d → d.identity ∉ r.identities) : Registering w location r (.error e) r
  | known {d : Device} (h : Device.DescribedAt (w 0) location d) (hold : d.identity ∈ r.identities) :
    Registering w location r (.ok false) r
  /-- The description gives no type or no unique name. -/
  | nameless {d : Device} (h : Device.DescribedAt (w 0) location d) (hload : ¬ d.Incomplete fun i => w (i + 1))
    (hname : ¬ IsComplete d.identity) (hnew : d.identity ∉ r.identities) : Registering w location r (.ok false) r
  | added {d loaded : Device} (h : Device.DescribedAt (w 0) location d) (hload : ¬ d.Incomplete fun i => w (i + 1))
    (hloaded : d.Loaded (fun i => w (i + 1)) loaded) (hid : loaded.identity = d.identity)
    (hname : IsComplete d.identity) (hnew : d.identity ∉ r.identities) :
    Registering w location r (.ok true) ⟨r.devices ++ [loaded]⟩

theorem registering_register (w : Nat → Http.Servers) (location : String) (r : Registry) :
    Registering w location r (r.register (fun i => (w i).network) location).1
      (r.register (fun i => (w i).network) location).2 := by
  rw [register_eq]
  cases hf : Device.fetch (w 0).network location with
  | error e =>
    refine .failed (.of_fetch hf) fun d hd => ?_
    cases hf.symm.trans (Device.fetch_eq_ok.2 hd)
  | ok d =>
    have hd := Device.fetch_eq_ok.1 hf
    simp only
    cases hc : r.contains d with
    | true => exact .known hd (contains_iff.1 hc)
    | false =>
      have hnew : d.identity ∉ r.identities := fun h => Bool.false_ne_true (hc.symm.trans (contains_iff.2 h))
      rw [if_neg Bool.false_ne_true]
      cases hl : d.loadError? fun i => (w (i + 1)).network with
      | some e =>
        refine .failed (.incomplete hd (Device.loadError?_ne_none_iff.1 (hl ▸ Option.some_ne_none e))) fun x hx => ?_
        exact hx.unique hd ▸ hnew
      | none =>
        have hload : ¬ d.Incomplete fun i => w (i + 1) := fun h => Device.loadError?_ne_none_iff.2 h hl
        have hid := Device.loadServices_identity (fun i => (w (i + 1)).network) d
        simp only
        cases ha : r.accepts (d.loadServices fun i => (w (i + 1)).network) with
        | true =>
          rw [add_of_accepts ha]
          exact .added hd hload (Device.loaded_loadServices hl) hid (hid ▸ (accepts_iff.1 ha).1) hnew
        | false =>
          rw [add_of_not_accepts ha]
          refine .nameless hd hload (fun hname => ?_) hnew
          rw [accepts_iff.2 (hid.symm ▸ ⟨hname, hnew⟩)] at ha
          cases ha

variable {w : Nat → Http.Servers} {location : String} {r later : Registry}

theorem Registering.eq_of_error {e : DescriptionError} (h : Registering w location r (.error e) later) : later = r := by
  cases h
  rfl

/-- A call succeeds on a device that is described, if it is known or everything about it can be fetched. -/
theorem Registering.ok_iff {result : Except DescriptionError Bool} (h : Registering w location r result later) :
    (∃ b, result = .ok b) ↔ ∃ d, Device.DescribedAt (w 0) location d ∧
      (d.identity ∈ r.identities ∨ ¬ d.Incomplete fun i => w (i + 1)) := by
  cases h with
  | failed hf hnew =>
    refine ⟨fun ⟨b, hb⟩ => (nomatch hb), fun ⟨d, hd, hok⟩ => ?_⟩
    exact absurd (hf.incomplete_of_described hd) (hok.resolve_left (hnew d hd))
  | known hd hold => exact ⟨fun _ => ⟨_, hd, .inl hold⟩, fun _ => ⟨_, rfl⟩⟩
  | nameless hd hload => exact ⟨fun _ => ⟨_, hd, .inr hload⟩, fun _ => ⟨_, rfl⟩⟩
  | added hd hload => exact ⟨fun _ => ⟨_, hd, .inr hload⟩, fun _ => ⟨_, rfl⟩⟩

/-! ## What a success promises -/

/-- The device is found after the call, and the call tells whether it was not found before. -/
structure Promised (r : Registry) (d : Device) (b : Bool) (later : Registry) : Prop where
  found : ∃ x, later.find? d.node.deviceType d.node.udn = some x
  new : b = true ↔ r.find? d.node.deviceType d.node.udn = none

theorem exists_find?_iff {d : Device} :
    (∃ x, r.find? d.node.deviceType d.node.udn = some x) ↔ d.identity ∈ r.identities := by
  rw [← Option.isSome_iff_exists]
  exact has_iff

theorem find?_eq_none_iff {d : Device} :
    r.find? d.node.deviceType d.node.udn = none ↔ d.identity ∉ r.identities := by
  rw [← exists_find?_iff, ← Option.isSome_iff_exists, Option.not_isSome_iff_eq_none]

theorem promised_iff {d : Device} {b : Bool} :
    r.Promised d b later ↔ d.identity ∈ later.identities ∧ (b = true ↔ d.identity ∉ r.identities) := by
  rw [← exists_find?_iff, ← find?_eq_none_iff]
  exact ⟨fun h => ⟨h.found, h.new⟩, fun h => ⟨h.1, h.2⟩⟩

theorem Registering.promised_iff {b : Bool} {d : Device} (h : Registering w location r (.ok b) later)
    (hd : Device.DescribedAt (w 0) location d) :
    r.Promised d b later ↔ IsComplete d.identity ∨ d.identity ∈ r.identities := by
  rw [Registry.promised_iff]
  cases h with
  | known he hold =>
    obtain rfl := hd.unique he
    simp only [hold, not_true_eq_false, Bool.false_eq_true, and_self, or_true]
  | nameless he _ hname hnew =>
    obtain rfl := hd.unique he
    simp only [hname, hnew, false_and, or_self]
  | added he _ _ hid hname hnew =>
    obtain rfl := hd.unique he
    rw [identities_append, hid]
    have hmem := List.mem_append_right r.identities (List.mem_singleton_self d.identity)
    exact ⟨fun _ => .inl hname, fun _ => ⟨hmem, fun _ => hnew, fun _ => rfl⟩⟩

end Registry

/-! ## Adding -/

namespace ControlPoint

open Registry

/-- Adding the device at a location changes nothing if it fails, and nothing but the registry otherwise. It
succeeds just if the device is described there and is known already or everything about it can be fetched. A
success then keeps its promise, that the device is found afterwards and the answer tells whether it was not
before, just if the description gives both a type and a unique name or the device was known. -/
theorem addDevice_finds (w : Nat → Http.Servers) (location : String) (c : ControlPoint) :
    ∃ result later, c.discovery.registry.register (fun i => (w i).network) location = (result, later) ∧
      c.addDevice (fun i => (w i).network) location =
        (result, { c with discovery := { c.discovery with registry := later } }) ∧
      (∀ e, result = .error e → later = c.discovery.registry) ∧
      ((∃ b, result = .ok b) ↔ ∃ d, Device.DescribedAt (w 0) location d ∧
        (d.identity ∈ c.discovery.registry.identities ∨ ¬ d.Incomplete fun i => w (i + 1))) ∧
      ∀ b d, result = .ok b → Device.DescribedAt (w 0) location d →
        (c.discovery.registry.Promised d b later ↔
          IsComplete d.identity ∨ d.identity ∈ c.discovery.registry.identities) := by
  have h := registering_register w location c.discovery.registry
  rcases hr : c.discovery.registry.register (fun i => (w i).network) location with ⟨result, later⟩
  rw [hr] at h
  refine ⟨result, later, rfl, ?_, ?_, h.ok_iff, ?_⟩
  · unfold addDevice
    rw [hr]
  · rintro e rfl
    exact h.eq_of_error
  · rintro b d rfl hd
    exact h.promised_iff hd

/-- The lamp comes in and is found; at the hub nobody answers, and the lamp stays alone. -/
theorem addDevice_finds_lamp :
    ∃ c : ControlPoint, addDevice (fun i => (Discovery.lampServers i).network) "http://lamp/" {} = (.ok true, c) ∧
      (∃ x, c.discovery.registry.find? "lamp" "uuid:1" = some x) ∧
      ∃ e, addDevice (fun _ => Http.Servers.network fun _ => none) "http://hub/" c = (.error e, c) := by
  obtain ⟨result, later, -, hadd, -, hok, hpromised⟩ := addDevice_finds Discovery.lampServers "http://lamp/" {}
  obtain ⟨b, rfl⟩ := hok.2 ⟨_, Discovery.lamp_described, .inr Discovery.lamp_complete⟩
  have hlamp := (hpromised b _ rfl Discovery.lamp_described).2 (.inl ⟨by decide, by decide⟩)
  obtain rfl := hlamp.new.2 rfl
  refine ⟨_, hadd, hlamp.found, ?_⟩
  obtain ⟨result, after, -, hhub, hkept, hok, -⟩ := addDevice_finds (fun _ _ => none) "http://hub/"
    { discovery := { registry := later } }
  cases result with
  | ok b =>
    obtain ⟨d, ⟨text, _, ⟨reply, hreply, -⟩, -⟩, -⟩ := hok.1 ⟨b, rfl⟩
    cases hreply
  | error e =>
    obtain rfl := hkept e rfl
    exact ⟨e, hhub⟩

/-- A lamp whose description gives no unique name. -/
def namelessLamp : Device :=
  Device.relink ⟨{ deviceType := "lamp" }, []⟩

def namelessDescription : String :=
  "<root><device><deviceType>lamp</deviceType></device></root>"

def namelessServers : Http.Servers := fun _ =>
  some ⟨200, Text.Utf8.encode namelessDescription⟩

/-- Adding it succeeds and tells that the lamp was there, which it neither was nor is. -/
theorem namelessLamp_not_found :
    let d := namelessLamp.setLocationUrl "http://lamp/"
    Device.DescribedAt namelessServers "http://lamp/" d ∧
    addDevice (fun _ => namelessServers.network) "http://lamp/" {} = (.ok false, {}) ∧
    Registry.find? {} d.node.deviceType d.node.udn = none ∧ ¬ Promised {} d false {} := by
  intro d
  have hread : Device.ofDescription namelessDescription = .ok namelessLamp := by decide +kernel
  have hd : Device.DescribedAt namelessServers "http://lamp/" d :=
    ⟨namelessDescription, namelessLamp, Http.Servers.holds_of_encoded rfl, hread, rfl⟩
  refine ⟨hd, ?_, rfl, fun h => ?_⟩
  · unfold addDevice
    rw [register_eq, Device.fetch_eq_ok.2 hd]
    rfl
  · obtain ⟨x, hx⟩ := h.found
    cases hx

end ControlPoint

end Upnp
