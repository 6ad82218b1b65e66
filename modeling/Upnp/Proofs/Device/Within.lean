import Upnp.Device.Find
import Upnp.Proofs.Device.Links

/-
Searching a tree of devices. The devices within a tree are its root and those within the devices that
are embedded in the root; what is asked of types anywhere in a tree is asked of one of them.
-/

namespace Upnp.Device

/-! ## Devices within a tree -/

theorem Within.trans {d e f : Device} (h : d.Within e) (k : e.Within f) : d.Within f := by
  induction k with
  | root => exact h
  | embedded _ he ih => exact .embedded ih he

theorem within_iff {d e : Device} : d.Within e ↔ e = d ∨ ∃ c ∈ d.embedded, c.Within e := by
  constructor
  · intro h
    induction h with
    | root => exact .inl rfl
    | embedded _ he ih =>
      right
      rcases ih with rfl | ⟨c, hc, hw⟩
      · exact ⟨_, he, .root⟩
      · exact ⟨c, hc, .embedded hw he⟩
  · rintro (rfl | ⟨c, hc, hw⟩)
    · exact .root
    · exact Within.trans (.embedded .root hc) hw

/-- Something holds of a device within a tree if it holds of the root or within an embedded device. -/
theorem exists_within_iff {p : Device → Prop} {n : DeviceNode} {ds : List Device} :
    (∃ e, (⟨n, ds⟩ : Device).Within e ∧ p e) ↔ p ⟨n, ds⟩ ∨ ∃ c ∈ ds, ∃ e, c.Within e ∧ p e := by
  constructor
  · rintro ⟨e, he, hp⟩
    rcases within_iff.1 he with rfl | ⟨c, hc, hw⟩
    · exact .inl hp
    · exact .inr ⟨c, hc, e, hw, hp⟩
  · rintro (hp | ⟨c, hc, e, hw, hp⟩)
    · exact ⟨_, .root, hp⟩
    · exact ⟨e, within_iff.2 (.inr ⟨c, hc, hw⟩), hp⟩

/-! ## Types -/

mutual

theorem hasDeviceType_iff (t : String) : ∀ d : Device, d.hasDeviceType t = true ↔
    ∃ e, d.Within e ∧ e.node.deviceType = t
  | ⟨n, ds⟩ => by
    rw [exists_within_iff, hasDeviceType, Bool.or_eq_true, anyHasDeviceType_iff t ds, beq_iff_eq]

theorem anyHasDeviceType_iff (t : String) : ∀ ds : List Device, anyHasDeviceType t ds = true ↔
    ∃ d ∈ ds, ∃ e, d.Within e ∧ e.node.deviceType = t
  | [] => by simp [anyHasDeviceType]
  | d :: ds => by
    rw [anyHasDeviceType, Bool.or_eq_true, hasDeviceType_iff t d, anyHasDeviceType_iff t ds]
    simp only [List.mem_cons, or_and_right, exists_or, exists_eq_left]

end

mutual

theorem hasServiceType_iff (t : String) : ∀ d : Device, d.hasServiceType t = true ↔
    ∃ e, d.Within e ∧ ∃ s ∈ e.node.services, s.serviceType = t
  | ⟨n, ds⟩ => by
    rw [exists_within_iff, hasServiceType, Bool.or_eq_true, anyHasServiceType_iff t ds, List.any_eq_true]
    simp only [beq_iff_eq]

theorem anyHasServiceType_iff (t : String) : ∀ ds : List Device, anyHasServiceType t ds = true ↔
    ∃ d ∈ ds, ∃ e, d.Within e ∧ ∃ s ∈ e.node.services, s.serviceType = t
  | [] => by simp [anyHasServiceType]
  | d :: ds => by
    rw [anyHasServiceType, Bool.or_eq_true, hasServiceType_iff t d, anyHasServiceType_iff t ds]
    simp only [List.mem_cons, or_and_right, exists_or, exists_eq_left]

end

end Upnp.Device
