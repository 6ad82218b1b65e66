import Mathlib.Data.List.Induction
import Mathlib.Data.List.Nodup
import Upnp.Device.Registry

/-
What a registry holds after devices were offered to it. Whatever was offered and in whatever order, the
devices of the registry are those whose offer was answered with `true`, and the answers are told by the
offers alone: a device is added if its identity is complete and none of the devices before it had it.
-/

namespace Upnp

/-! ## Identities -/

/-- What a device is known by: its type and unique name. -/
def Device.identity (d : Device) : String × String :=
  (d.node.deviceType, d.node.udn)

/-- A device can be known by this. -/
def IsComplete (k : String × String) : Prop :=
  k.1 ≠ "" ∧ k.2 ≠ ""

namespace Device

theorem hasIdentity_iff {d : Device} {deviceType udn : String} :
    (d.node.deviceType == deviceType && d.node.udn == udn) = true ↔ d.identity = (deviceType, udn) := by
  rw [Bool.and_eq_true, beq_iff_eq, beq_iff_eq, identity, Prod.mk.injEq]

end Device

namespace Registry

def identities (r : Registry) : List (String × String) :=
  r.devices.map Device.identity

theorem has_iff {r : Registry} {deviceType udn : String} :
    r.has deviceType udn = true ↔ (deviceType, udn) ∈ r.identities := by
  unfold has find? identities
  rw [List.find?_isSome, List.mem_map]
  constructor
  · rintro ⟨d, hd, hk⟩
    exact ⟨d, hd, Device.hasIdentity_iff.1 hk⟩
  · rintro ⟨d, hd, hk⟩
    exact ⟨d, hd, Device.hasIdentity_iff.2 hk⟩

theorem contains_iff {r : Registry} {d : Device} : r.contains d = true ↔ d.identity ∈ r.identities :=
  has_iff

theorem accepts_iff {r : Registry} {d : Device} :
    r.accepts d = true ↔ IsComplete d.identity ∧ d.identity ∉ r.identities := by
  unfold accepts IsComplete
  rw [Bool.and_eq_true, Bool.and_eq_true, bne_iff_ne, bne_iff_ne, Bool.not_eq_true', ← contains_iff,
    Bool.not_eq_true]
  rfl

theorem add_of_accepts {r : Registry} {d : Device} (h : r.accepts d = true) : r.add d = ⟨r.devices ++ [d]⟩ :=
  if_pos h

theorem add_of_not_accepts {r : Registry} {d : Device} (h : r.accepts d = false) : r.add d = r :=
  if_neg (by rw [h]; exact Bool.false_ne_true)

theorem identities_append (r : Registry) (d : Device) :
    identities ⟨r.devices ++ [d]⟩ = r.identities ++ [d.identity] :=
  List.map_append

/-- What is found stays when devices come behind those that are there. -/
theorem find?_of_prefix {r later : Registry} (h : r.devices <+: later.devices) {deviceType udn : String} {d : Device}
    (hf : r.find? deviceType udn = some d) : later.find? deviceType udn = some d := by
  obtain ⟨more, hmore⟩ := h
  unfold find? at hf ⊢
  rw [← hmore, List.find?_append, hf, Option.some_or]

end Registry

/-! ## Asking for devices -/

/-- What can be asked of known devices, however they are kept. -/
structure Directory where
  find? : String → String → Option Device
  has : String → String → Bool
  contains : Device → Bool
  devices : List Device
  ofType : String → List Device
  size : Nat

/-- All answers are about these devices, each of which is there once and is found under its own type and
unique name. -/
structure Directory.Lists (q : Directory) (ds : List Device) : Prop where
  nodup : (ds.map Device.identity).Nodup
  find? : ∀ deviceType udn d, q.find? deviceType udn = some d ↔ d ∈ ds ∧ d.identity = (deviceType, udn)
  has : ∀ deviceType udn, q.has deviceType udn = (q.find? deviceType udn).isSome
  contains : ∀ d, q.contains d = (q.find? d.node.deviceType d.node.udn).isSome
  devices : q.devices.Perm ds
  ofType : ∀ deviceType, (q.ofType deviceType).Perm (ds.filter (·.node.deviceType == deviceType))
  size : q.size = ds.length

namespace Registry

def directory (r : Registry) : Directory :=
  ⟨r.find?, r.has, r.contains, r.devices, r.ofType, r.size⟩

/-- Where identities are not repeated, a device is found under its own and no other. -/
theorem find?_eq_some_iff {r : Registry} (hn : r.identities.Nodup) {deviceType udn : String} {d : Device} :
    r.find? deviceType udn = some d ↔ d ∈ r.devices ∧ d.identity = (deviceType, udn) := by
  unfold find?
  constructor
  · intro h
    have hp := List.find?_some h
    exact ⟨List.mem_of_find?_eq_some h, Device.hasIdentity_iff.1 hp⟩
  · rintro ⟨hd, hk⟩
    cases hf : r.devices.find? fun e => e.node.deviceType == deviceType && e.node.udn == udn with
    | none => exact absurd (Device.hasIdentity_iff.2 hk) (List.find?_eq_none.1 hf d hd)
    | some e =>
      have hp := List.find?_some hf
      have he : e.identity = d.identity := (Device.hasIdentity_iff.1 hp).trans hk.symm
      rw [List.inj_on_of_nodup_map hn (List.mem_of_find?_eq_some hf) hd he]

/-- A device that is added is found from then on, and all others as before. -/
theorem find?_add_of_accepts {r : Registry} {d : Device} (h : r.accepts d = true) (deviceType udn : String) :
    (r.add d).find? deviceType udn = if d.identity = (deviceType, udn) then some d else r.find? deviceType udn := by
  rw [add_of_accepts h, find?, List.find?_append, List.find?_singleton]
  by_cases hk : d.identity = (deviceType, udn)
  · have hnone : r.find? deviceType udn = none := by
      rw [← Option.not_isSome_iff_eq_none]
      exact fun hs => (accepts_iff.1 h).2 (hk ▸ has_iff.1 hs)
    rw [if_pos hk, if_pos (Device.hasIdentity_iff.2 hk), show r.devices.find? _ = none from hnone, Option.none_or]
  · rw [if_neg hk, if_neg (mt Device.hasIdentity_iff.1 hk), Option.or_none]
    rfl

theorem directory_lists {r : Registry} (hn : r.identities.Nodup) : r.directory.Lists r.devices where
  nodup := hn
  find? := fun _ _ _ => find?_eq_some_iff hn
  has := fun _ _ => rfl
  contains := fun _ => rfl
  devices := List.Perm.refl _
  ofType := fun _ => List.Perm.refl _
  size := rfl

/-! ## Offering devices -/

/-- The registry and the answers so far, when one more device is offered. -/
def offer (s : Registry × List Bool) (d : Device) : Registry × List Bool :=
  (s.1.add d, s.2 ++ [s.1.accepts d])

/-- Offers devices one after the other to an empty registry; each answer says whether the device was added. -/
def offerAll (ds : List Device) : Registry × List Bool :=
  ds.foldl offer ({}, [])

/-- The devices whose offers were answered with `true`. -/
def added (ds : List Device) (answers : List Bool) : List Device :=
  ((ds.zip answers).filter Prod.snd).map Prod.fst

theorem offerAll_concat (ds : List Device) (d : Device) : offerAll (ds ++ [d]) = offer (offerAll ds) d :=
  List.foldl_concat ..

theorem length_answers (ds : List Device) : (offerAll ds).2.length = ds.length := by
  induction ds using List.reverseRecOn with
  | nil => rfl
  | append_singleton ds d ih =>
    rw [offerAll_concat, offer, List.length_append, List.length_append, ih]
    rfl

theorem added_concat {ds : List Device} {answers : List Bool} (h : ds.length = answers.length) (d : Device)
    (b : Bool) : added (ds ++ [d]) (answers ++ [b]) = added ds answers ++ if b then [d] else [] := by
  unfold added
  rw [List.zip_append h, List.filter_append, List.map_append]
  cases b <;> rfl

theorem length_added {ds : List Device} {answers : List Bool} (h : ds.length = answers.length) :
    (added ds answers).length = answers.count true := by
  unfold added
  rw [List.length_map, ← List.countP_eq_length_filter, List.count]
  conv_rhs => rw [← List.map_snd_zip (Nat.le_of_eq h.symm), List.countP_map]
  exact List.countP_congr fun x _ => by rw [Function.comp_apply, beq_iff_eq]

/-- The registry holds just what was added, in the order of the offers. -/
theorem devices_offerAll (ds : List Device) : (offerAll ds).1.devices = added ds (offerAll ds).2 := by
  induction ds using List.reverseRecOn with
  | nil => rfl
  | append_singleton ds d ih =>
    rw [offerAll_concat, offer, added_concat (length_answers ds).symm, ← ih]
    cases ha : (offerAll ds).1.accepts d with
    | true => rw [add_of_accepts ha, if_pos rfl]
    | false => rw [add_of_not_accepts ha, if_neg Bool.false_ne_true, List.append_nil]

/-- The identities of the registry are the complete ones among those offered, one each. -/
theorem identities_offerAll (ds : List Device) : (offerAll ds).1.identities.Nodup ∧
    ∀ k, k ∈ (offerAll ds).1.identities ↔ IsComplete k ∧ k ∈ ds.map Device.identity := by
  induction ds using List.reverseRecOn with
  | nil => exact ⟨List.nodup_nil, fun k => ⟨fun h => (List.not_mem_nil h).elim, fun h => (List.not_mem_nil h.2).elim⟩⟩
  | append_singleton ds d ih =>
    obtain ⟨hn, hk⟩ := ih
    rw [offerAll_concat, offer, List.map_append, List.map_singleton]
    cases ha : (offerAll ds).1.accepts d with
    | true =>
      obtain ⟨hc, hnew⟩ := accepts_iff.1 ha
      rw [add_of_accepts ha, identities_append]
      refine ⟨List.nodup_append'.2 ⟨hn, List.nodup_singleton _, List.disjoint_singleton.2 hnew⟩, fun k => ?_⟩
      rw [List.mem_append, List.mem_append, hk, and_or_left, List.mem_singleton]
      exact or_congr_right ⟨fun h => ⟨h ▸ hc, h⟩, And.right⟩
    | false =>
      rw [add_of_not_accepts ha]
      refine ⟨hn, fun k => ?_⟩
      rw [hk, List.mem_append, List.mem_singleton]
      refine and_congr_right fun hc => ⟨.inl, fun h => h.elim id ?_⟩
      rintro rfl
      by_contra hnew
      rw [accepts_iff.2 ⟨hc, fun h => hnew ((hk _).1 h).2⟩] at ha
      cases ha

/-- An offer is answered by whether the identity is complete and was not offered before. -/
theorem answer_iff (ds : List Device) (i : Nat) (d : Device) (hd : ds[i]? = some d) :
    (offerAll ds).2[i]? = some true ↔ IsComplete d.identity ∧ d.identity ∉ (ds.take i).map Device.identity := by
  induction ds using List.reverseRecOn with
  | nil => cases hd
  | append_singleton ds e ih =>
    have hi : i < ds.length + 1 := by simpa using (List.getElem?_eq_some_iff.1 hd).1
    rw [offerAll_concat, offer, List.getElem?_append, length_answers]
    rcases Nat.lt_succ_iff_lt_or_eq.1 hi with hlt | rfl
    · rw [List.getElem?_append_left hlt] at hd
      rw [if_pos hlt, List.take_append_of_le_length (Nat.le_of_lt hlt)]
      exact ih hd
    · rw [List.getElem?_concat_length] at hd
      cases hd
      rw [if_neg (Nat.lt_irrefl _), Nat.sub_self, List.getElem?_cons_zero, Option.some_inj, accepts_iff,
        List.take_left, (identities_offerAll ds).2]
      exact and_congr_right fun hc => not_congr (and_iff_right hc)

end Registry

end Upnp
