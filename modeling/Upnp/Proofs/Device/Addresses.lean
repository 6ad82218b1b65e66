import Mathlib.Data.List.Find
import Mathlib.Data.List.Nodup
import Upnp.Device.Find
import Upnp.Device.Revision
import Upnp.Proofs.Serving.Routing

/-
Services by their addresses. The addresses that a service gets when its device is completed are made of the
short form of its type alone, and the first service at an address is the one that is found there. So a service
is found at its own addresses if no service before it has a type of the same short form, whatever their
identities are.
-/

namespace Upnp

/-- The service has no address of its own yet. -/
structure Service.Unaddressed (s : Service) : Prop where
  scpdUrl : s.scpdUrl = ""
  controlUrl : s.controlUrl = ""
  eventSubUrl : s.eventSubUrl = ""

instance (s : Service) : Decidable s.Unaddressed :=
  decidable_of_iff (s.scpdUrl = "" ∧ s.controlUrl = "" ∧ s.eventSubUrl = "")
    ⟨fun h => ⟨h.1, h.2.1, h.2.2⟩, fun h => ⟨h.scpdUrl, h.controlUrl, h.eventSubUrl⟩⟩

/-- Each entry of a list is the first of its key if no two entries have the same. -/
theorem find?_key_eq_self_iff {α : Type} (key : α → String) {xs : List α} (hn : xs.Nodup) :
    (∀ x ∈ xs, xs.find? (fun y => key y == key x) = some x) ↔ (xs.map key).Nodup := by
  classical
  refine ⟨fun h => (List.nodup_map_iff_inj_on hn).2 fun x hx y hy hxy => ?_, fun hk x hx => ?_⟩
  · have hfound := h x hx
    rw [hxy, h y hy] at hfound
    exact (Option.some.inj hfound).symm
  · have hk' : ((xs ++ []).map key).Nodup := by rwa [List.append_nil]
    rw [find?_key_append key hk' (List.mem_append_left [] hx), if_pos hx]

namespace Device

/-! ## Addresses that completing makes -/

theorem services_revise (uuid : Nat → String) (i : Nat) (d : Device) : ∃ l,
    (d.revise uuid i).1.node.services = d.node.services.map fun s => s.revise.attach l := by
  obtain ⟨n, ds⟩ := d
  refine ⟨(n.revise (uuid i)).link, ?_⟩
  rw [revise]
  exact List.map_map

theorem findService_eq_ok_iff {d : Device} {key : String} {p : Service → Bool} {s : Service} :
    d.findService key p = .ok s ↔ d.node.services.find? p = some s := by
  unfold findService
  cases d.node.services.find? p with
  | none => exact iff_of_false (fun h => nomatch h) fun h => nomatch h
  | some t => exact ⟨fun h => congrArg some (Except.ok.inj h), fun h => congrArg Except.ok (Option.some.inj h)⟩

/-- The addresses of a service that had none tell nothing but the short form of its type. -/
theorem addresses_revise {d : Device} (hu : ∀ s ∈ d.node.services, s.Unaddressed) (uuid : Nat → String) (i : Nat) :
    ∀ s ∈ (d.revise uuid i).1.node.services,
      s.controlUrl = "/service/control/" ++ s.shortType ∧ s.scpdUrl = "/service/scpd/" ++ s.shortType ++ ".xml" := by
  obtain ⟨l, hl⟩ := services_revise uuid i d
  rw [hl, List.forall_mem_map]
  intro s hs
  have hs := hu s hs
  exact ⟨if_pos hs.controlUrl, if_pos hs.scpdUrl⟩

/-- Looking for the addresses of one service, where its description is and where it is controlled, finds the
other. -/
structure FindsAt (d : Device) (s found : Service) : Prop where
  controlUrl : d.serviceByControlUrl s.controlUrl = .ok found
  scpdUrl : d.serviceByScpdUrl s.scpdUrl = .ok found

/-- Found at the addresses of a service is the first one whose type has the same short form. -/
theorem findsAt_revise_iff {d : Device} (hu : ∀ s ∈ d.node.services, s.Unaddressed) (uuid : Nat → String) (i : Nat)
    {s : Service} (hs : s ∈ (d.revise uuid i).1.node.services) (found : Service) :
    (d.revise uuid i).1.FindsAt s found ↔
      (d.revise uuid i).1.node.services.find? (·.shortType == s.shortType) = some found := by
  have haddress := addresses_revise hu uuid i
  obtain ⟨hcontrol, hscpd⟩ := haddress s hs
  generalize (d.revise uuid i).1 = r at haddress hs ⊢
  have hfirst : r.node.services.find? (·.controlUrl == s.controlUrl) =
      r.node.services.find? (·.shortType == s.shortType) := List.find?_congr fun t ht => by
    rw [Bool.eq_iff_iff, beq_iff_eq, beq_iff_eq, (haddress t ht).1, hcontrol, String.append_right_inj]
  have hfirst' : r.node.services.find? (·.scpdUrl == s.scpdUrl) =
      r.node.services.find? (·.shortType == s.shortType) := List.find?_congr fun t ht => by
    rw [Bool.eq_iff_iff, beq_iff_eq, beq_iff_eq, (haddress t ht).2, hscpd, String.append_left_inj,
      String.append_right_inj]
  have hbyControl : r.serviceByControlUrl s.controlUrl = .ok found ↔
      r.node.services.find? (·.shortType == s.shortType) = some found := hfirst ▸ findService_eq_ok_iff
  have hbyScpd : r.serviceByScpdUrl s.scpdUrl = .ok found ↔
      r.node.services.find? (·.shortType == s.shortType) = some found := hfirst' ▸ findService_eq_ok_iff
  exact ⟨fun h => hbyControl.1 h.controlUrl, fun h => ⟨hbyControl.2 h, hbyScpd.2 h⟩⟩

/-! ## Services that are found at their addresses -/

/-- Of services of different identities that had no addresses, the one found at the addresses of a service is the
first whose type has the same short form. So all of them are found at their own if and only if the short forms
of their types differ. -/
theorem findsAt_self_iff {d : Device} (hu : ∀ s ∈ d.node.services, s.Unaddressed)
    (hi : (d.node.services.map Service.serviceId).Nodup) (uuid : Nat → String) (i : Nat) :
    (∀ s ∈ (d.revise uuid i).1.node.services, ∀ found, (d.revise uuid i).1.FindsAt s found ↔
      (d.revise uuid i).1.node.services.find? (·.shortType == s.shortType) = some found) ∧
    ((∀ s ∈ (d.revise uuid i).1.node.services, (d.revise uuid i).1.FindsAt s s) ↔
      (d.node.services.map Service.shortType).Nodup) := by
  refine ⟨fun s hs found => findsAt_revise_iff hu uuid i hs found, ?_⟩
  obtain ⟨l, hl⟩ := services_revise uuid i d
  -- completing changes neither identities nor short forms
  have hids : (d.revise uuid i).1.node.services.map Service.serviceId = d.node.services.map Service.serviceId := by
    rw [hl, List.map_map]
    rfl
  have hshort : (d.revise uuid i).1.node.services.map Service.shortType = d.node.services.map Service.shortType := by
    rw [hl, List.map_map]
    rfl
  rw [← hshort, ← find?_key_eq_self_iff Service.shortType (List.Nodup.of_map _ (hids ▸ hi))]
  exact forall₂_congr fun s hs => findsAt_revise_iff hu uuid i hs s

/-- A lamp that can be dimmed, with a service of its maker's own. -/
def dimmer : Device :=
  (((named "urn:schemas-upnp-org:device:DimmableLight:1" "Lamp").addService
    { serviceType := "urn:schemas-upnp-org:service:SwitchPower:1", serviceId := "urn:upnp-org:serviceId:SwitchPower" }
    ).addService
    { serviceType := "urn:schemas-upnp-org:service:Dimming:1", serviceId := "urn:upnp-org:serviceId:Dimming" }
    ).addService { serviceType := "Colour", serviceId := "colour" }

theorem findsAt_self_iff_dimmer :
    (∀ s ∈ dimmer.node.services, s.Unaddressed) ∧ (dimmer.node.services.map Service.serviceId).Nodup ∧
    ∀ s ∈ (dimmer.revise (fun _ => "1") 0).1.node.services, (dimmer.revise (fun _ => "1") 0).1.FindsAt s s := by
  have hu : ∀ s ∈ dimmer.node.services, s.Unaddressed := by decide
  have hi : (dimmer.node.services.map Service.serviceId).Nodup := by decide
  exact ⟨hu, hi, (findsAt_self_iff hu hi (fun _ => "1") 0).2.2 (by decide)⟩

/-- A board of two switches of one type, told apart by their identities. -/
def switchBoard : Device :=
  ((named "urn:schemas-upnp-org:device:SwitchBoard:1" "Board").addService
    { serviceType := "urn:schemas-upnp-org:service:SwitchPower:1", serviceId := "urn:upnp-org:serviceId:SwitchPower.1" }
    ).addService
    { serviceType := "urn:schemas-upnp-org:service:SwitchPower:1", serviceId := "urn:upnp-org:serviceId:SwitchPower.2" }

/-- The second switch has an identity of its own, but at its addresses the first one is found. -/
theorem secondSwitch_not_found :
    (∀ s ∈ switchBoard.node.services, s.Unaddressed) ∧ (switchBoard.node.services.map Service.serviceId).Nodup ∧
    ∃ first second, (switchBoard.revise (fun _ => "1") 0).1.node.services = [first, second] ∧
      first.serviceId ≠ second.serviceId ∧ (switchBoard.revise (fun _ => "1") 0).1.FindsAt second first :=
  ⟨by decide, by decide, _, _, rfl, by decide, rfl, rfl⟩

end Device

end Upnp
