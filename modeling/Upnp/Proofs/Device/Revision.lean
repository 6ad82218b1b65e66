import Mathlib.Data.List.Forall2
import Upnp.Proofs.Device.Links
import Upnp.Serving.Server

/-
Completing a device for serving. It adds the names and addresses that are missing and touches nothing else:
what was given stays, and so does all that the parts of the tree hold, apart from what they know of each
other. A complete device stays as it is, so one that is served again and again keeps its names and addresses.
-/

namespace Upnp

/-! ## What completing makes of each part -/

/-- A text that is there, and is the one from before if there was one. -/
structure Filled (before after : String) : Prop where
  present : after ≠ ""
  kept : before ≠ "" → after = before

/-- The action without what it and its arguments know of what they belong to. -/
def Action.unlinked (a : Action) : Action :=
  { a with service := none, arguments := a.arguments.map ({ · with action := none }) }

/-- The service with all its addresses, and otherwise as it was but for what its actions and itself know of
what they belong to. -/
structure Service.Completed (s t : Service) : Prop where
  scpdUrl : Filled s.scpdUrl t.scpdUrl
  controlUrl : Filled s.controlUrl t.controlUrl
  eventSubUrl : Filled s.eventSubUrl t.eventSubUrl
  actions : t.actions.map Action.unlinked = s.actions.map Action.unlinked
  rest : s = { t with
    scpdUrl := s.scpdUrl, controlUrl := s.controlUrl, eventSubUrl := s.eventSubUrl, actions := s.actions,
    device := s.device }

/-- The device by itself with a name, an address of its description and completed services, and otherwise as it
was but for what it knows of its parent. -/
structure DeviceNode.Completed (n m : DeviceNode) : Prop where
  udn : Filled n.udn m.udn
  descriptionUrl : Filled n.descriptionUrl m.descriptionUrl
  services : List.Forall₂ Service.Completed n.services m.services
  rest : n = { m with
    udn := n.udn, descriptionUrl := n.descriptionUrl, services := n.services, parent := n.parent }

/-- The tree with each device of it completed, in its place. -/
inductive Device.Completed : Device → Device → Prop
  | intro {n m : DeviceNode} {ds es : List Device} (node : n.Completed m)
    (embedded : List.Forall₂ Device.Completed ds es) : Completed ⟨n, ds⟩ ⟨m, es⟩

theorem Action.unlinked_attach (l : ServiceLink) (a : Action) : (a.attach l).unlinked = a.unlinked := by
  unfold unlinked attach
  rw [List.map_map]
  rfl

namespace Service

theorem filled_orElseText (text : String) {other : String} (h : other ≠ "") : Filled text (orElseText text other) := by
  unfold orElseText
  split
  · exact ⟨h, fun hn => absurd ‹text = ""› hn⟩
  · exact ⟨‹_›, fun _ => rfl⟩

theorem orElseText_of_filled {before after : String} (h : Filled before after) (other : String) :
    orElseText after other = after :=
  if_neg h.present

theorem completed_revise (s : Service) : s.Completed s.revise := by
  refine ⟨filled_orElseText _ ?_, filled_orElseText _ ?_, filled_orElseText _ ?_, ?_, rfl⟩
  · simp
  · simp
  · simp
  · show (s.actions.map _).map _ = _
    rw [List.map_map]
    exact List.map_congr_left fun a _ => a.unlinked_attach _

/-- It does not matter to whom the completed service is said to belong. -/
theorem Completed.attach {s t : Service} (h : s.Completed t) (l : DeviceLink) : s.Completed (t.attach l) := by
  refine ⟨h.scpdUrl, h.controlUrl, h.eventSubUrl, ?_, h.rest⟩
  rw [← h.actions]
  show (t.actions.map _).map _ = _
  rw [List.map_map]
  exact List.map_congr_left fun a _ => a.unlinked_attach _

end Service

theorem DeviceNode.completed_revise (uuid : String) (n : DeviceNode) : n.Completed (n.revise uuid) :=
  { udn := Service.filled_orElseText _ (by simp [Device.udnOfUuid])
    descriptionUrl := Service.filled_orElseText _ (by decide)
    services := List.forall₂_map_right_iff.2 (List.forall₂_same.2 fun s _ => s.completed_revise)
    rest := rfl }

/-- It does not matter either what the completed device and its services are told. -/
theorem DeviceNode.Completed.relink {n m : DeviceNode} (h : n.Completed m) (parent : Option DeviceLink) :
    n.Completed { m with parent }.relink :=
  { udn := h.udn
    descriptionUrl := h.descriptionUrl
    services := List.forall₂_map_right_iff.2 (h.services.imp fun _ _ hs => hs.attach _)
    rest := h.rest }

namespace Device

/-! ## Completing a tree -/

mutual

theorem Completed.attach (l : DeviceLink) : ∀ {d e : Device}, d.Completed e → d.Completed (e.attach l)
  | ⟨n, ds⟩, ⟨m, es⟩, .intro node embedded => by
    rw [Device.attach]
    exact .intro (node.relink _) (Completed.attachAll _ embedded)

theorem Completed.attachAll (l : DeviceLink) : ∀ {ds es : List Device}, List.Forall₂ Device.Completed ds es →
    List.Forall₂ Device.Completed ds (Device.attachAll l es)
  | [], [], .nil => .nil
  | _ :: _, _ :: _, .cons h hs => by
    rw [Device.attachAll]
    exact .cons (Completed.attach l h) (Completed.attachAll l hs)

end

mutual

theorem completed_revise (uuid : Nat → String) (i : Nat) : ∀ d : Device, d.Completed (d.revise uuid i).1
  | ⟨n, ds⟩ => by
    rw [revise]
    exact .intro ((n.completed_revise _).relink _) (Completed.attachAll _ (completed_reviseAll uuid _ ds))

theorem completed_reviseAll (uuid : Nat → String) (i : Nat) : ∀ ds : List Device,
    List.Forall₂ Device.Completed ds (reviseAll uuid i ds).1
  | [] => .nil
  | d :: ds => by
    rw [reviseAll]
    exact .cons (completed_revise uuid i d) (completed_reviseAll uuid _ ds)

end

end Device

/-! ## Telling again what is known -/

theorem map_eq_self {α : Type} {f : α → α} {xs : List α} (h : ∀ x ∈ xs, f x = x) : xs.map f = xs :=
  (List.map_congr_left h).trans (List.map_id _)

theorem Action.Linked.attach_eq {l : ServiceLink} {a : Action} (h : a.Linked l) : a.attach l = a := by
  have harguments : a.arguments.map a.own = a.arguments := map_eq_self fun x hx => by
    unfold own
    rw [← h.arguments x hx]
  unfold attach
  rw [harguments, ← h.service]

theorem Service.Linked.relink_eq {l : DeviceLink} {s : Service} (h : s.Linked l) : s.relink = s := by
  unfold relink
  rw [map_eq_self fun a ha => (h.actions a ha).attach_eq]

theorem Service.Linked.attach_eq {l : DeviceLink} {s : Service} (h : s.Linked l) : s.attach l = s := by
  have hself : ({ s with device := some l } : Service) = s := by
    rw [← h.device]
  rw [attach, hself, h.relink_eq]

theorem DeviceNode.relink_eq {n : DeviceNode} (h : ∀ s ∈ n.services, s.Linked n.link) : n.relink = n := by
  unfold relink
  rw [map_eq_self fun s hs => (h s hs).attach_eq]

namespace Device

mutual

/-- Attaching a device again where it is attached already changes nothing. -/
theorem attach_eq {l : DeviceLink} : ∀ {d : Device}, d.node.parent = some l → d.Linked → d.attach l = d
  | ⟨n, ds⟩, hp, .intro services parents embedded => by
    have hself : ({ n with parent := some l } : DeviceNode) = n := by
      rw [← hp]
    rw [attach, hself, DeviceNode.relink_eq services, attachAll_eq parents embedded]

theorem attachAll_eq {l : DeviceLink} : ∀ {ds : List Device}, (∀ e ∈ ds, e.node.parent = some l) →
    (∀ e ∈ ds, e.Linked) → attachAll l ds = ds
  | [], _, _ => rfl
  | d :: ds, hp, hl => by
    obtain ⟨hd, hds⟩ := List.forall_mem_cons.1 hp
    obtain ⟨ld, lds⟩ := List.forall_mem_cons.1 hl
    rw [attachAll, attach_eq hd ld, attachAll_eq hds lds]

end

theorem Linked.relink_eq {d : Device} (h : d.Linked) : d.relink = d := by
  cases h with
  | intro services parents embedded =>
    unfold relink
    rw [DeviceNode.relink_eq services, attachAll_eq parents embedded]

end Device

/-! ## Completing again -/

theorem Service.Completed.revise_eq {l : DeviceLink} {s t : Service} (h : s.Completed t) (hl : t.Linked l) :
    t.revise = t := by
  unfold revise
  simp only [orElseText_of_filled h.scpdUrl, orElseText_of_filled h.controlUrl, orElseText_of_filled h.eventSubUrl]
  exact hl.relink_eq

theorem Service.map_revise_eq {l : DeviceLink} {ss ts : List Service} (h : List.Forall₂ Service.Completed ss ts)
    (hl : ∀ t ∈ ts, t.Linked l) : ts.map Service.revise = ts := by
  induction h with
  | nil => rfl
  | cons ht _ ih =>
    obtain ⟨hlt, hlts⟩ := List.forall_mem_cons.1 hl
    rw [List.map_cons, ht.revise_eq hlt, ih hlts]

/-- A complete device by itself stays as it is, whatever UUID it is offered, and takes none. -/
theorem DeviceNode.Completed.revise_eq {l : DeviceLink} {n m : DeviceNode} (h : n.Completed m)
    (hl : ∀ s ∈ m.services, s.Linked l) (uuid : String) : m.revise uuid = m ∧ m.uuidsNeeded = 0 := by
  refine ⟨?_, if_neg h.udn.present⟩
  unfold revise
  rw [Service.orElseText_of_filled h.udn, Service.orElseText_of_filled h.descriptionUrl,
    Service.map_revise_eq h.services hl]

namespace Device

mutual

/-- Completing a device that is complete changes nothing and takes no UUID. -/
theorem Completed.revise_eq (uuid : Nat → String) (i : Nat) : ∀ {d e : Device}, d.Completed e → e.Linked →
    e.revise uuid i = (e, i)
  | ⟨n, ds⟩, ⟨m, es⟩, .intro node embedded, hl => by
    obtain ⟨hnode, hneeded⟩ := node.revise_eq hl.services (uuid i)
    rw [revise, hneeded, Nat.add_zero, Completed.reviseAll_eq uuid i embedded hl.embedded, hnode]
    exact congrArg (·, i) hl.relink_eq

theorem Completed.reviseAll_eq (uuid : Nat → String) (i : Nat) : ∀ {ds es : List Device},
    List.Forall₂ Device.Completed ds es → (∀ e ∈ es, e.Linked) → reviseAll uuid i es = (es, i)
  | [], [], .nil, _ => rfl
  | _ :: _, _ :: _, .cons h hs, hl => by
    obtain ⟨hd, hds⟩ := List.forall_mem_cons.1 hl
    simp only [reviseAll, Completed.revise_eq uuid i h hd, Completed.reviseAll_eq uuid i hs hds]

end

/-- Completing a device again changes nothing, takes no UUID and so generates no name. -/
theorem revise_revise (uuid again : Nat → String) (i j : Nat) (d : Device) :
    (d.revise uuid i).1.revise again j = ((d.revise uuid i).1, j) :=
  (completed_revise uuid i d).revise_eq again j (revise_linked uuid i d)

end Device

/-! ## Serving again and again -/

namespace DeviceServer

/-- Nothing is held. -/
structure Idle (s : DeviceServer) : Prop where
  http : s.http = none
  port : s.port = none
  multicast : s.multicast = none

theorem idle_stop (panics : Panics) (s : DeviceServer) : (s.stop panics).1.Idle :=
  ⟨rfl, rfl, rfl⟩

/-- Stopping changes nothing where nothing is held. -/
theorem Idle.stop_eq {s : DeviceServer} (h : s.Idle) (panics : Panics) : s.stop panics = (s, [], .ok ()) := by
  obtain ⟨device, http, multicast, port⟩ := s
  obtain ⟨rfl, rfl, rfl⟩ := h
  rfl

/-- What a server may be asked to do. -/
inductive Request where
  | start (panics undone : Panics) (grants : Grants) (interfaces : List Net.Interface)
  | stop (panics : Panics)

def Request.isStart : Request → Bool
  | .start _ _ _ _ => true
  | .stop _ => false

/-- The device that a server publishes, with the number of the next UUID. -/
def published (state : DeviceServer × Nat) : Device × Nat :=
  (state.1.device, state.2)

/-- The server after a request, with the number of the next UUID. -/
def handle (uuid : Nat → String) (state : DeviceServer × Nat) : Request → DeviceServer × Nat
  | .start panics undone grants interfaces =>
    let outcome := state.1.start uuid state.2 panics undone grants interfaces
    (outcome.1, outcome.2.1)
  | .stop panics => ((state.1.stop panics).1, state.2)

variable (uuid : Nat → String) (i : Nat) (panics undone : Panics) (grants : Grants)
  (interfaces : List Net.Interface) (s : DeviceServer)

/-- A start that is not kept back by what was there before completes the device, whether it succeeds or fails. -/
theorem published_start (h : (s.stop panics).2.2 = .ok ()) :
    published (handle uuid (s, i) (.start panics undone grants interfaces)) = s.device.revise uuid i := by
  have hstop : s.stop panics = ((s.stop panics).1, (s.stop panics).2.1, .ok ()) := by rw [← h]
  have hdevice : (s.stop panics).1.device = s.device := rfl
  rw [handle, start, hstop]
  simp only [hdevice]
  obtain ⟨device, next⟩ := s.device.revise uuid i
  cases grants.http with
  | noSocket fault => rfl
  | noThread port fault => rfl
  | full port =>
    dsimp only
    split <;> rfl

/-- A start otherwise leaves the device as it is. -/
theorem published_start_stuck {e : DeviceServerError} (h : (s.stop panics).2.2 = .error e) :
    published (handle uuid (s, i) (.start panics undone grants interfaces)) = (s.device, i) := by
  have hstop : s.stop panics = ((s.stop panics).1, (s.stop panics).2.1, .error e) := by rw [← h]
  rw [handle, start, hstop]
  rfl

variable {i s}

/-- What is completed stays as it is at all requests. -/
theorem published_handle_of_revised {again : Nat → String} {d : Device} {k : Nat}
    (h : s.device = (d.revise again k).1) (r : Request) : published (handle uuid (s, i) r) = (s.device, i) := by
  cases r with
  | stop panics => rfl
  | start panics undone grants interfaces =>
    cases hstop : (s.stop panics).2.2 with
    | error e => exact published_start_stuck uuid i panics undone grants interfaces s hstop
    | ok u =>
      rw [published_start uuid i panics undone grants interfaces s hstop, h]
      exact Device.revise_revise ..

theorem published_foldl_of_revised {again : Nat → String} {d : Device} {k : Nat} (h : s.device = (d.revise again k).1)
    (requests : List Request) : published (requests.foldl (handle uuid) (s, i)) = (s.device, i) := by
  induction requests generalizing s i with
  | nil => rfl
  | cons r requests ih =>
    obtain ⟨hdevice, hnext⟩ := Prod.ext_iff.1 (published_handle_of_revised uuid (i := i) h r)
    exact (ih (hdevice.trans h)).trans (Prod.ext hdevice hnext)

/-- However often a server is started and stopped, its device is completed once: at the first start, before which
there is nothing to keep it back. -/
theorem published_foldl (h : s.Idle) (requests : List Request) : published (requests.foldl (handle uuid) (s, i)) =
    if requests.any Request.isStart then s.device.revise uuid i else (s.device, i) := by
  induction requests generalizing s with
  | nil => rfl
  | cons r requests ih =>
    cases r with
    | stop panics => exact ih (idle_stop panics s)
    | start panics undone grants interfaces =>
      have hstop : (s.stop panics).2.2 = .ok () := by rw [h.stop_eq]
      obtain ⟨hdevice, hnext⟩ := Prod.ext_iff.1 (published_start uuid i panics undone grants interfaces s hstop)
      exact (published_foldl_of_revised uuid hdevice requests).trans (Prod.ext hdevice hnext)

end DeviceServer

/-- Completing gives every device of a tree a name and an address of its description and every service its
addresses, keeps all that was given and everything else, and is final: it changes nothing a second time and
takes no UUID, so a device keeps the identity that it has been published with however often it is served. -/
theorem Device.revise_completes_once (uuid : Nat → String) (i : Nat) (d : Device) :
    d.Completed (d.revise uuid i).1 ∧ (d.revise uuid i).1.node.parent = d.node.parent ∧
    (∀ (again : Nat → String) (j : Nat), (d.revise uuid i).1.revise again j = ((d.revise uuid i).1, j)) ∧
    ∀ requests : List DeviceServer.Request,
      DeviceServer.published (requests.foldl (DeviceServer.handle uuid) ({ device := d }, i)) =
        if requests.any DeviceServer.Request.isStart then d.revise uuid i else (d, i) :=
  ⟨completed_revise uuid i d, revise_parent uuid i d, fun again j => revise_revise uuid again i j d,
    DeviceServer.published_foldl uuid ⟨rfl, rfl, rfl⟩⟩

end Upnp
