import Mathlib.Data.Prod.Basic
import Upnp.Device.Shelves
import Upnp.Proofs.Device.Registry

/-
Devices kept by their types. Each type has a shelf of its own, made when the first device of the type
comes, and on a shelf each device has a place of its own by its unique name. Shelves have no order, but
in all else they answer as a registry does that keeps its devices in a row: both tell of just the devices
that were added, and shelves hold each of them under its own type and name.
-/

namespace Upnp

namespace Shelves

def directory (s : Shelves) : Directory :=
  ⟨s.find?, s.has, s.contains, s.devices, s.ofType, s.size⟩

/-- Offers devices one after the other to empty shelves. -/
def offerAll (ds : List Device) : Shelves × List Bool :=
  ds.foldl (fun done d => let (b, s) := done.1.add d; (s, done.2 ++ [b])) ({}, [])

/-! ## Finding -/

variable {s : Shelves} {deviceType udn : String} {d : Device}

theorem find?_eq_shelf (s : Shelves) (deviceType udn : String) : s.find? deviceType udn = (s.shelf deviceType)[udn]? := by
  unfold find? shelf
  rw [Std.HashMap.getD_eq_getD_getElem?]
  cases s.byType[deviceType]? with
  | none => exact Std.HashMap.getElem?_empty.symm
  | some shelf => rfl

theorem has_eq (s : Shelves) (deviceType udn : String) : s.has deviceType udn = (s.find? deviceType udn).isSome := by
  unfold has find?
  cases s.byType[deviceType]? with
  | none => rfl
  | some shelf => exact Std.HashMap.contains_eq_isSome_getElem?

theorem find?_insert (s : Shelves) (t : String) (shelf : Std.HashMap String Device) :
    (Shelves.mk (s.byType.insert t shelf)).find? deviceType udn =
      if t = deviceType then shelf[udn]? else s.find? deviceType udn := by
  rw [find?_eq_shelf, find?_eq_shelf, Shelves.shelf, Std.HashMap.getD_insert]
  by_cases ht : t = deviceType
  · rw [if_pos ht, if_pos (beq_iff_eq.2 ht)]
  · rw [if_neg ht, if_neg (mt beq_iff_eq.1 ht)]
    rfl

/-- What becomes of an offer: it is refused and nothing is found elsewhere than before, or the device
comes to its own place, which was free. -/
theorem add_cases (s : Shelves) (d : Device) :
    ((s.add d).1 = false ∧ (IsComplete d.identity → s.find? d.node.deviceType d.node.udn ≠ none) ∧
      ∀ t u, (s.add d).2.find? t u = s.find? t u) ∨
    ((s.add d).1 = true ∧ IsComplete d.identity ∧ s.find? d.node.deviceType d.node.udn = none ∧
      ∀ t u, (s.add d).2.find? t u = if d.identity = (t, u) then some d else s.find? t u) := by
  unfold add
  split
  · rename_i he
    exact .inl ⟨rfl, fun hc => (he.elim hc.1 hc.2).elim, fun t u => rfl⟩
  · rename_i hne
    obtain ⟨ht, hu⟩ := not_or.1 hne
    dsimp only
    split
    · rename_i hc
      rw [Std.HashMap.contains_eq_isSome_getElem?, ← find?_eq_shelf, Option.isSome_iff_ne_none] at hc
      refine .inl ⟨rfl, fun _ => hc, fun t u => ?_⟩
      rw [find?_insert]
      split
      · rename_i heq
        rw [← heq, find?_eq_shelf]
      · rfl
    · rename_i hc
      rw [Std.HashMap.contains_eq_isSome_getElem?, ← find?_eq_shelf, Option.not_isSome_iff_eq_none] at hc
      refine .inr ⟨rfl, ⟨ht, hu⟩, hc, fun t u => ?_⟩
      rw [find?_insert, Std.HashMap.getElem?_insert]
      unfold Device.identity
      by_cases heq : d.node.deviceType = t
      · subst heq
        rw [if_pos rfl, ← find?_eq_shelf]
        exact if_congr (by rw [beq_iff_eq, Prod.mk_inj, and_iff_right rfl]) rfl rfl
      · rw [if_neg heq, if_neg fun h => heq (Prod.mk_inj.1 h).1]

/-! ## Telling of all devices -/

/-- Each device on the shelves is found under its own type and unique name. -/
def Placed (s : Shelves) : Prop :=
  ∀ deviceType udn d, s.find? deviceType udn = some d → d.identity = (deviceType, udn)

theorem mem_row {shelf : Std.HashMap String Device} : d ∈ row shelf ↔ ∃ udn : String, shelf[udn]? = some d := by
  unfold row
  constructor
  · intro h
    obtain ⟨⟨u, e⟩, he, rfl⟩ := List.mem_map.1 h
    exact ⟨u, Std.HashMap.mem_toList_iff_getElem?_eq_some.1 he⟩
  · rintro ⟨u, hu⟩
    exact List.mem_map.2 ⟨(u, d), Std.HashMap.mem_toList_iff_getElem?_eq_some.2 hu, rfl⟩

theorem mem_devices : d ∈ s.devices ↔ ∃ deviceType udn, s.find? deviceType udn = some d := by
  unfold devices
  constructor
  · intro h
    obtain ⟨⟨t, shelf⟩, he, hd⟩ := List.mem_flatMap.1 h
    obtain ⟨u, hu⟩ := mem_row.1 hd
    refine ⟨t, u, ?_⟩
    rw [find?, Std.HashMap.mem_toList_iff_getElem?_eq_some.1 he, Option.bind_some, hu]
  · rintro ⟨t, u, hf⟩
    obtain ⟨shelf, hs, hu⟩ := Option.bind_eq_some_iff.1 hf
    exact List.mem_flatMap.2 ⟨(t, shelf), Std.HashMap.mem_toList_iff_getElem?_eq_some.2 hs, mem_row.2 ⟨u, hu⟩⟩

theorem mem_ofType : d ∈ s.ofType deviceType ↔ ∃ udn, s.find? deviceType udn = some d := by
  unfold ofType find?
  cases s.byType[deviceType]? with
  | none => exact ⟨fun h => (List.not_mem_nil h).elim, fun ⟨_, h⟩ => nomatch h⟩
  | some shelf => exact mem_row

/-- The keys of a map are those of its list, none of them twice. -/
theorem nodup_keys {β : Type} (m : Std.HashMap String β) : (m.toList.map Prod.fst).Nodup := by
  rw [Std.HashMap.map_fst_toList_eq_keys]
  exact Std.HashMap.nodup_keys

/-- On a shelf no device is there twice, since each has a name of its own. -/
theorem nodup_row {shelf : Std.HashMap String Device} (h : ∀ (u : String) (d : Device), shelf[u]? = some d → d.node.udn = u) :
    (row shelf).Nodup := by
  have hkeys : (row shelf).map (·.node.udn) = shelf.toList.map Prod.fst := by
    unfold row
    rw [List.map_map]
    exact List.map_congr_left fun x hx => h x.1 x.2 (Std.HashMap.mem_toList_iff_getElem?_eq_some.1 hx)
  exact .of_map _ (hkeys ▸ nodup_keys shelf)

namespace Placed

variable (h : s.Placed)

include h

theorem shelf_udn {t : String} {shelf : Std.HashMap String Device} (hs : s.byType[t]? = some shelf) (u : String)
    (d : Device) (hd : shelf[u]? = some d) : d.identity = (t, u) :=
  h t u d (by rw [find?, hs, Option.bind_some, hd])

theorem nodup_devices : s.devices.Nodup := by
  refine List.nodup_flatMap.2 ⟨fun x hx => ?_, ?_⟩
  · have hs := Std.HashMap.mem_toList_iff_getElem?_eq_some.1 hx
    exact nodup_row fun u d hd => (Prod.mk_inj.1 (h.shelf_udn hs u d hd)).2
  · -- a device on two shelves would have two types
    refine (List.pairwise_map.1 (nodup_keys s.byType)).imp_of_mem fun {x y} hx hy hne d hdx hdy => hne ?_
    obtain ⟨u, hu⟩ := mem_row.1 hdx
    obtain ⟨v, hv⟩ := mem_row.1 hdy
    have hix := h.shelf_udn (Std.HashMap.mem_toList_iff_getElem?_eq_some.1 hx) u d hu
    have hiy := h.shelf_udn (Std.HashMap.mem_toList_iff_getElem?_eq_some.1 hy) v d hv
    exact (Prod.mk_inj.1 (hix.symm.trans hiy)).1

theorem nodup_ofType (deviceType : String) : (s.ofType deviceType).Nodup := by
  unfold ofType
  cases hs : s.byType[deviceType]? with
  | none => exact List.nodup_nil
  | some shelf => exact nodup_row fun u d hd => (Prod.mk_inj.1 (h.shelf_udn hs u d hd)).2

end Placed

theorem size_eq (s : Shelves) : s.size = s.devices.length := by
  have hrow : ∀ shelf : Std.HashMap String Device, (row shelf).length = shelf.size := fun shelf => by
    rw [row, List.length_map, Std.HashMap.length_toList]
  simp only [size, devices, Std.HashMap.fold_eq_foldl_toList, List.length_flatMap, List.sum_eq_foldl, List.foldl_map, hrow]

/-- Shelves on which just these devices are found tell of them in all answers. -/
theorem directory_lists {ds : List Device} (hn : (ds.map Device.identity).Nodup)
    (hf : ∀ t u d, s.find? t u = some d ↔ d ∈ ds ∧ d.identity = (t, u)) : s.directory.Lists ds := by
  have hplaced : s.Placed := fun t u d hd => ((hf t u d).1 hd).2
  have hds : ds.Nodup := .of_map _ hn
  have hdevices : s.devices.Perm ds := by
    refine (List.perm_ext_iff_of_nodup hplaced.nodup_devices hds).2 fun d => ?_
    rw [mem_devices]
    exact ⟨fun ⟨t, u, hd⟩ => ((hf t u d).1 hd).1, fun hd => ⟨_, _, (hf _ _ d).2 ⟨hd, rfl⟩⟩⟩
  refine ⟨hn, hf, has_eq s, fun d => has_eq s _ _, hdevices, fun t => ?_, ?_⟩
  · refine (List.perm_ext_iff_of_nodup (hplaced.nodup_ofType t) (hds.filter _)).2 fun d => ?_
    rw [mem_ofType, List.mem_filter, beq_iff_eq]
    constructor
    · rintro ⟨u, hu⟩
      obtain ⟨hd, hk⟩ := (hf t u d).1 hu
      exact ⟨hd, (Prod.mk_inj.1 hk).1⟩
    · rintro ⟨hd, rfl⟩
      exact ⟨_, (hf _ _ d).2 ⟨hd, rfl⟩⟩
  · exact (size_eq s).trans hdevices.length_eq

/-! ## Offering devices -/

theorem offerAll_concat (ds : List Device) (d : Device) : offerAll (ds ++ [d]) =
    (((offerAll ds).1.add d).2, (offerAll ds).2 ++ [((offerAll ds).1.add d).1]) :=
  List.foldl_concat ..

/-- Shelves and a registry that were offered the same devices find the same and have given the same
answers. -/
theorem offerAll_eq (ds : List Device) : (offerAll ds).2 = (Registry.offerAll ds).2 ∧
    ∀ t u, (offerAll ds).1.find? t u = (Registry.offerAll ds).1.find? t u := by
  induction ds using List.reverseRecOn with
  | nil =>
    refine ⟨rfl, fun t u => ?_⟩
    rw [find?_eq_shelf]
    exact (congrArg (·[u]?) Std.HashMap.getD_empty).trans Std.HashMap.getElem?_empty
  | append_singleton ds d ih =>
    obtain ⟨hanswers, hfind⟩ := ih
    -- both take an offer just when its identity is complete and nothing is found under it
    have hcontains : (Registry.offerAll ds).1.contains d = ((offerAll ds).1.find? d.node.deviceType d.node.udn).isSome := by
      rw [hfind]
      rfl
    rw [offerAll_concat, Registry.offerAll_concat, Registry.offer, hanswers]
    rcases (offerAll ds).1.add_cases d with ⟨hb, hknown, hsame⟩ | ⟨hb, hc, hfree, hnew⟩
    · have ha : (Registry.offerAll ds).1.accepts d = false := by
        by_contra ha
        obtain ⟨hc, hno⟩ := Registry.accepts_iff.1 (Bool.not_eq_false _ ▸ ha)
        refine hno (Registry.contains_iff.1 ?_)
        rw [hcontains, Option.isSome_iff_ne_none]
        exact hknown hc
      refine ⟨by rw [hb, ha], fun t u => ?_⟩
      rw [hsame, Registry.add_of_not_accepts ha, hfind]
    · have ha : (Registry.offerAll ds).1.accepts d = true := by
        refine Registry.accepts_iff.2 ⟨hc, fun hmem => ?_⟩
        rw [← Registry.contains_iff, hcontains, hfree] at hmem
        cases hmem
      refine ⟨by rw [hb, ha], fun t u => ?_⟩
      rw [hnew, Registry.find?_add_of_accepts ha, hfind]

/-- After any offers, a registry and shelves have answered alike: an offer is accepted just when the
identity is complete and no offer before had it. Both then tell in all answers of just the devices that
were accepted, each once, and on shelves each of them stands under its own type and unique name. -/
theorem offerAll_lists (ds : List Device) :
    let answers := (Registry.offerAll ds).2
    let accepted := Registry.added ds answers
    answers.length = ds.length ∧ (offerAll ds).2 = answers ∧ accepted.length = answers.count true ∧
    (∀ i d, ds[i]? = some d →
      (answers[i]? = some true ↔ IsComplete d.identity ∧ d.identity ∉ (ds.take i).map Device.identity)) ∧
    (Registry.offerAll ds).1.directory.Lists accepted ∧ (offerAll ds).1.directory.Lists accepted ∧
    ∀ (t : String) shelf, (offerAll ds).1.byType[t]? = some shelf → ∀ (u : String) d, shelf[u]? = some d →
      d.identity = (t, u) := by
  intro answers accepted
  have hlength : answers.length = ds.length := Registry.length_answers ds
  obtain ⟨hanswers, hfind⟩ := offerAll_eq ds
  have hregistry : (Registry.offerAll ds).1.directory.Lists accepted := by
    have h := Registry.directory_lists (Registry.identities_offerAll ds).1
    rwa [Registry.devices_offerAll] at h
  have hfound : ∀ t u d, (offerAll ds).1.find? t u = some d ↔ d ∈ accepted ∧ d.identity = (t, u) := fun t u d => by
    rw [hfind]
    exact hregistry.find? t u d
  have hplaced : (offerAll ds).1.Placed := fun t u d hd => ((hfound t u d).1 hd).2
  exact ⟨hlength, hanswers, Registry.length_added hlength.symm, Registry.answer_iff ds, hregistry,
    directory_lists hregistry.nodup hfound, fun _ _ => hplaced.shelf_udn⟩

/-- A lamp, another that claims its identity, a dimmer of the same name, and a lamp without a name. -/
def fourOffers : List Device :=
  [(Device.named "lamp" "Hall").setUdn "uuid:1", (Device.named "lamp" "Attic").setUdn "uuid:1",
    (Device.named "dimmer" "Hall").setUdn "uuid:1", Device.named "lamp" "Cellar"]

/-- The second lamp is refused since an offer before had its identity, and the last since it has no name. -/
theorem offerAll_lists_fourOffers :
    (Registry.offerAll fourOffers).2 = [true, false, true, false] ∧ (offerAll fourOffers).2 = [true, false, true, false] ∧
    ¬ (IsComplete ("lamp", "uuid:1") ∧ ("lamp", "uuid:1") ∉ (fourOffers.take 1).map Device.identity) ∧
    ((offerAll fourOffers).1.directory.find? "lamp" "uuid:1").map (·.node.info.friendlyName) = some "Hall" ∧
    (offerAll fourOffers).1.directory.size = 2 ∧
    ∀ shelf, (offerAll fourOffers).1.byType["lamp"]? = some shelf → ∀ (u : String) d, shelf[u]? = some d →
      d.identity = ("lamp", u) := by
  have hanswers : (Registry.offerAll fourOffers).2 = [true, false, true, false] := by decide
  obtain ⟨-, hsame, -, hanswer, -, hshelves, hplaced⟩ := offerAll_lists fourOffers
  have hsecond := hanswer 1 ((Device.named "lamp" "Attic").setUdn "uuid:1") rfl
  rw [hanswers] at hsame hshelves hsecond
  have hhall := (hshelves.find? "lamp" "uuid:1" ((Device.named "lamp" "Hall").setUdn "uuid:1")).2
    ⟨List.mem_cons_self, rfl⟩
  exact ⟨hanswers, hsame, fun h => absurd (hsecond.2 h) (by decide), by rw [hhall]; rfl, hshelves.size,
    hplaced "lamp"⟩

end Shelves

end Upnp
