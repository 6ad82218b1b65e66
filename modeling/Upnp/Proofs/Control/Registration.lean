import Upnp.Control.Discovery
import Upnp.Proofs.Device.Loading
import Upnp.Proofs.Device.Registry

/-
Registering at the same time. Any number of calls share one registry; each of their steps happens at
once, and between two steps of a call all others may have steps of theirs, over networks that answer
whatever they like. A call looks its device up before it fetches the rest and adds it afterwards, when
another call may have added one of the same identity. That this does no harm rests on an invariant
of all states: the identities in the registry are those of the calls that came to `true`, one each.
-/

namespace Upnp

/-! ## One call -/

namespace Registration

/-- The device that a call under way holds. -/
def held? : Registration → Option Device
  | .fetched d => some d
  | .unregistered d => some d
  | .loaded d => some d
  | _ => none

/-- The device that a call has just fetched. -/
def fetched? : Registration → Option Device
  | .fetched d => some d
  | _ => none

def isEnded : Registration → Bool
  | .ended _ => true
  | _ => false

theorem isEnded_of_held? {c : Registration} {d : Device} (h : c.held? = some d) : c.isEnded = false := by
  cases c with
  | ended result => cases h
  | _ => rfl

end Registration

/-- A call among others, with the device that it fetched. -/
structure Caller where
  phase : Registration
  device : Option Device := none

namespace Caller

def identity? (c : Caller) : Option (String × String) :=
  c.device.map Device.identity

/-- The call has come to `true` for an identity. -/
def Adds (c : Caller) (k : String × String) : Prop :=
  c.phase = .ended (.ok true) ∧ c.identity? = some k

def step (network : Nat → Http.Network) (r : Registry) (c : Caller) : Caller × Registry :=
  let (phase, r) := c.phase.step network r
  (⟨phase, phase.fetched?.or c.device⟩, r)

/-- What a step of a call can do to the call and to the registry. -/
inductive Move (r : Registry) : Caller → Caller → Registry → Prop
  /-- The call had ended. -/
  | rest (c : Caller) : Move r c c r
  | fetch (location : String) (device : Option Device) (d : Device) :
    Move r ⟨.started location, device⟩ ⟨.fetched d, some d⟩ r
  | fail {c : Caller} (hc : c.phase.isEnded = false) (e : DescriptionError) :
    Move r c ⟨.ended (.error e), c.device⟩ r
  /-- The call goes on with a device of the same identity. -/
  | carry {c : Caller} {d e : Device} {phase : Registration} (hc : c.phase.held? = some d)
    (hp : phase.held? = some e) (he : e.identity = d.identity) : Move r c ⟨phase, c.device⟩ r
  | refuse {c : Caller} {d : Device} (hc : c.phase.held? = some d)
    (hd : IsComplete d.identity → d.identity ∈ r.identities) : Move r c ⟨.ended (.ok false), c.device⟩ r
  | add {c : Caller} {d : Device} (hc : c.phase.held? = some d) (hd : IsComplete d.identity)
    (hn : d.identity ∉ r.identities) : Move r c ⟨.ended (.ok true), c.device⟩ ⟨r.devices ++ [d]⟩

theorem step_move (network : Nat → Http.Network) (r : Registry) (c : Caller) :
    Move r c (c.step network r).1 (c.step network r).2 := by
  obtain ⟨phase, device⟩ := c
  cases phase with
  | started location =>
    simp only [step, Registration.step]
    cases Device.fetch (network 0) location with
    | ok d => exact .fetch location device d
    | error e => exact .fail (c := ⟨.started location, device⟩) rfl e
  | fetched d =>
    simp only [step, Registration.step]
    cases hc : r.contains d with
    | true => exact .refuse (c := ⟨.fetched d, device⟩) rfl fun _ => Registry.contains_iff.1 hc
    | false => exact .carry (c := ⟨.fetched d, device⟩) rfl rfl rfl
  | unregistered d =>
    simp only [step, Registration.step]
    cases d.loadError? fun i => network (i + 1) with
    | some e => exact .fail (c := ⟨.unregistered d, device⟩) rfl e
    | none => exact .carry (c := ⟨.unregistered d, device⟩) rfl rfl (Device.loadServices_identity _ d)
  | loaded d =>
    simp only [step, Registration.step]
    cases ha : r.accepts d with
    | true =>
      obtain ⟨hd, hn⟩ := Registry.accepts_iff.1 ha
      rw [Registry.add_of_accepts ha]
      exact .add (c := ⟨.loaded d, device⟩) rfl hd hn
    | false =>
      rw [Registry.add_of_not_accepts ha]
      refine .refuse (c := ⟨.loaded d, device⟩) rfl fun hd => ?_
      by_contra hn
      rw [Registry.accepts_iff.2 ⟨hd, hn⟩] at ha
      cases ha
  | ended result => exact .rest _

/-- What a call knows is true of the registry. -/
structure Sound (r : Registry) (c : Caller) : Prop where
  held : ∀ d, c.phase.held? = some d → c.identity? = some d.identity
  /-- A call that ended well has left its identity there. -/
  present : ∀ b k, c.phase = .ended (.ok b) → c.identity? = some k → IsComplete k → k ∈ r.identities
  added : ∀ k, c.Adds k → k ∈ r.identities

theorem Sound.mono {r r' : Registry} {c : Caller} (h : c.Sound r) (hr : r.identities ⊆ r'.identities) :
    c.Sound r' where
  held := h.held
  present := fun b k hb hk hcomplete => hr (h.present b k hb hk hcomplete)
  added := fun k hk => hr (h.added k hk)

/-- A call that has not ended well needs only be about the device it holds. -/
theorem Sound.of_held {r : Registry} {c : Caller} (hc : ∀ b, c.phase ≠ .ended (.ok b))
    (hd : ∀ d, c.phase.held? = some d → c.identity? = some d.identity) : c.Sound r where
  held := hd
  present := fun b _ hb => absurd hb (hc b)
  added := fun _ hk => absurd hk.1 (hc true)

theorem not_adds_of_isEnded {c : Caller} (h : c.phase.isEnded = false) (k : String × String) : ¬ c.Adds k := by
  rintro ⟨hp, -⟩
  rw [hp] at h
  cases h

namespace Move

variable {r r' : Registry} {c c' : Caller}

/-- Devices come in behind those that are there. -/
theorem devices_grow (h : Move r c c' r') : r.devices <+: r'.devices := by
  cases h with
  | add => exact List.prefix_append _ _
  | _ => exact List.prefix_refl _

theorem identities_subset (h : Move r c c' r') : r.identities ⊆ r'.identities :=
  (h.devices_grow.map Device.identity).subset

theorem sound (h : Move r c c' r') (hs : c.Sound r) : c'.Sound r' := by
  cases h with
  | rest => exact hs
  | fetch location device d =>
    refine .of_held (fun b hb => by cases hb) fun e he => ?_
    cases he
    rfl
  | fail hc e => exact .of_held (fun b hb => by cases hb) fun d hd => by cases hd
  | @carry c d e phase hc hp he =>
    refine .of_held (fun b hb => ?_) fun f hf => ?_
    · simp only at hb
      rw [hb] at hp
      cases hp
    · obtain rfl := Option.some.inj (hp.symm.trans hf)
      rw [he]
      exact hs.held d hc
  | @refuse c d hc hd =>
    constructor
    · intro e he
      cases he
    · intro b k _ hk hcomplete
      obtain rfl := Option.some.inj ((hs.held d hc).symm.trans hk)
      exact hd hcomplete
    · rintro k ⟨hp, -⟩
      cases hp
  | @add c d hc hd hn =>
    have hmem : ∀ k, c.identity? = some k → k ∈ Registry.identities ⟨r.devices ++ [d]⟩ := by
      intro k hk
      rw [Registry.identities_append, ← Option.some.inj ((hs.held d hc).symm.trans hk)]
      exact List.mem_append_right _ (List.mem_singleton_self _)
    constructor
    · intro e he
      cases he
    · exact fun _ k _ hk _ => hmem k hk
    · exact fun k hk => hmem k hk.2

/-- Either nothing changes in the registry and in what the call has added, or the call, which had
added nothing, adds an identity that was not there. -/
theorem adds (h : Move r c c' r') (hs : c.Sound r) :
    (r' = r ∧ ∀ k, c'.Adds k ↔ c.Adds k) ∨
    ∃ new, new ∉ r.identities ∧ r'.identities = r.identities ++ [new] ∧ (∀ k, ¬ c.Adds k) ∧
      ∀ k, c'.Adds k ↔ k = new := by
  have hheld : ∀ {x : Caller} {d : Device}, x.phase.held? = some d → ∀ k, ¬ x.Adds k :=
    fun hx => not_adds_of_isEnded (Registration.isEnded_of_held? hx)
  cases h with
  | rest => exact .inl ⟨rfl, fun k => Iff.rfl⟩
  | fetch location device d =>
    exact .inl ⟨rfl, fun k => iff_of_false (not_adds_of_isEnded rfl k) (not_adds_of_isEnded rfl k)⟩
  | fail hc e =>
    refine .inl ⟨rfl, fun k => iff_of_false ?_ (not_adds_of_isEnded hc k)⟩
    rintro ⟨hp, -⟩
    cases hp
  | carry hc hp he => exact .inl ⟨rfl, fun k => iff_of_false (hheld hp k) (hheld hc k)⟩
  | refuse hc hd =>
    refine .inl ⟨rfl, fun k => iff_of_false ?_ (hheld hc k)⟩
    rintro ⟨hp, -⟩
    cases hp
  | @add c d hc hd hn =>
    refine .inr ⟨d.identity, hn, Registry.identities_append r d, hheld hc, fun k => ?_⟩
    constructor
    · rintro ⟨-, hk⟩
      exact Option.some.inj (hk.symm.trans (hs.held d hc))
    · rintro rfl
      exact ⟨rfl, hs.held d hc⟩

end Move

end Caller

/-! ## Calls at the same time -/

/-- Calls that share a registry. -/
structure Registrations (ι : Type) where
  calls : ι → Caller
  registry : Registry

namespace Registrations

variable {ι : Type}

/-- Calls for these locations, none of which has begun, and a registry that is empty. -/
def start (locations : ι → String) : Registrations ι :=
  ⟨fun i => { phase := .started (locations i) }, {}⟩

/-- What holds of the calls and their registry all the time. -/
structure Consistent (s : Registrations ι) : Prop where
  nodup : s.registry.identities.Nodup
  sound : ∀ i, (s.calls i).Sound s.registry
  adder : ∀ k ∈ s.registry.identities, ∃ i, (s.calls i).Adds k
  unique : ∀ i j k, (s.calls i).Adds k → (s.calls j).Adds k → i = j

theorem start_consistent (locations : ι → String) : (start locations).Consistent where
  nodup := List.nodup_nil
  sound := fun i => .of_held (fun b hb => by cases hb) fun d hd => by cases hd
  adder := fun k hk => by cases hk
  unique := fun i j k hk => by cases hk.1

variable [DecidableEq ι]

/-- One call has a step. -/
def step (s : Registrations ι) (i : ι) (network : Nat → Http.Network) : Registrations ι :=
  let (c, r) := (s.calls i).step network s.registry
  ⟨Function.update s.calls i c, r⟩

/-- The calls have steps in the order of a schedule, each over networks of its own. -/
def run (s : Registrations ι) (schedule : List (ι × (Nat → Http.Network))) : Registrations ι :=
  schedule.foldl (fun s turn => s.step turn.1 turn.2) s

theorem step_self (s : Registrations ι) (i : ι) (network : Nat → Http.Network) :
    Caller.Move s.registry (s.calls i) ((s.step i network).calls i) (s.step i network).registry := by
  have h := Caller.step_move network s.registry (s.calls i)
  unfold step
  simpa only [Function.update_self] using h

theorem step_other (s : Registrations ι) {i j : ι} (hj : j ≠ i) (network : Nat → Http.Network) :
    (s.step i network).calls j = s.calls j :=
  Function.update_of_ne hj _ _

/-- A step of one call keeps all calls and the registry consistent. -/
theorem Consistent.step {s : Registrations ι} (h : s.Consistent) (i : ι) (network : Nat → Http.Network) :
    (s.step i network).Consistent := by
  have hmove := s.step_self i network
  have hsound : ∀ j, ((s.step i network).calls j).Sound (s.step i network).registry := by
    intro j
    by_cases hj : j = i
    · subst hj
      exact hmove.sound (h.sound j)
    · rw [s.step_other hj]
      exact (h.sound j).mono hmove.identities_subset
  rcases hmove.adds (h.sound i) with ⟨hr, hadds⟩ | ⟨new, hnew, hr, hnone, hadds⟩
  · have hsame : ∀ j k, ((s.step i network).calls j).Adds k ↔ (s.calls j).Adds k := by
      intro j k
      by_cases hj : j = i
      · subst hj
        exact hadds k
      · rw [s.step_other hj]
    refine ⟨by rw [hr]; exact h.nodup, hsound, fun k hk => ?_, fun j l k hj hl => ?_⟩
    · obtain ⟨j, hj⟩ := h.adder k (hr ▸ hk)
      exact ⟨j, (hsame j k).2 hj⟩
    · exact h.unique j l k ((hsame j k).1 hj) ((hsame l k).1 hl)
  · -- what another call entered was there before, so it is not what this one enters now
    have hother : ∀ j k, j ≠ i → ((s.step i network).calls j).Adds k → k ∈ s.registry.identities := by
      intro j k hj hk
      rw [s.step_other hj] at hk
      exact (h.sound j).added k hk
    refine ⟨?_, hsound, fun k hk => ?_, fun j l k hj hl => ?_⟩
    · rw [hr, List.nodup_append]
      refine ⟨h.nodup, List.nodup_singleton new, fun a ha b hb hab => hnew ?_⟩
      rw [← List.mem_singleton.1 hb, ← hab]
      exact ha
    · rw [hr, List.mem_append, List.mem_singleton] at hk
      rcases hk with hk | rfl
      · obtain ⟨j, hj⟩ := h.adder k hk
        refine ⟨j, ?_⟩
        have hne : j ≠ i := by
          rintro rfl
          exact hnone k hj
        rw [s.step_other hne]
        exact hj
      · exact ⟨i, (hadds k).2 rfl⟩
    · by_cases hji : j = i <;> by_cases hli : l = i
      · rw [hji, hli]
      · subst hji
        rw [(hadds k).1 hj] at hl
        exact absurd (hother l new hli hl) hnew
      · subst hli
        rw [(hadds k).1 hl] at hj
        exact absurd (hother j new hji hj) hnew
      · rw [s.step_other hji] at hj
        rw [s.step_other hli] at hl
        exact h.unique j l k hj hl

/-- So does every run. -/
theorem Consistent.run {s : Registrations ι} (h : s.Consistent) (schedule : List (ι × (Nat → Http.Network))) :
    (s.run schedule).Consistent := by
  induction schedule generalizing s with
  | nil => exact h
  | cons turn schedule ih => exact ih (h.step turn.1 turn.2)

theorem step_devices_grow (s : Registrations ι) (i : ι) (network : Nat → Http.Network) :
    s.registry.devices <+: (s.step i network).registry.devices :=
  (s.step_self i network).devices_grow

theorem run_devices_grow (s : Registrations ι) (schedule : List (ι × (Nat → Http.Network))) :
    s.registry.devices <+: (s.run schedule).registry.devices := by
  induction schedule generalizing s with
  | nil => exact List.prefix_refl _
  | cons turn schedule ih => exact (s.step_devices_grow turn.1 turn.2).trans (ih _)

theorem run_append (s : Registrations ι) (schedule more : List (ι × (Nat → Http.Network))) :
    s.run (schedule ++ more) = (s.run schedule).run more :=
  List.foldl_append

/-- However the steps of any calls are interleaved, and whatever their networks answer: no identity is
in the registry twice; a device that is there is found ever after; of each complete identity that is
there exactly one call has come to `true`, of each other none has; and the identity of a call that
ended without an error is there, if it is complete. -/
theorem run_start_registers_once (locations : ι → String) (schedule : List (ι × (Nat → Http.Network))) :
    let s := (start locations).run schedule
    s.registry.identities.Nodup ∧
    (∀ more deviceType udn d, s.registry.find? deviceType udn = some d →
      ((start locations).run (schedule ++ more)).registry.find? deviceType udn = some d) ∧
    (∀ k, IsComplete k →
      (s.registry.has k.1 k.2 = true → ∃! i, (s.calls i).Adds k) ∧
      (s.registry.has k.1 k.2 = false → ∀ i, ¬ (s.calls i).Adds k)) ∧
    ∀ i b k, (s.calls i).phase = .ended (.ok b) → (s.calls i).identity? = some k → IsComplete k →
      s.registry.has k.1 k.2 = true := by
  intro s
  have hs : s.Consistent := (start_consistent locations).run schedule
  refine ⟨hs.nodup, fun more deviceType udn d hd => ?_, fun k _ => ⟨fun hk => ?_, fun hk i hi => ?_⟩,
    fun i b k hb hi hk => ?_⟩
  · rw [run_append]
    exact Registry.find?_of_prefix (run_devices_grow s more) hd
  · obtain ⟨i, hi⟩ := hs.adder k (Registry.has_iff.1 hk)
    exact ⟨i, hi, fun j hj => hs.unique j i k hj hi⟩
  · rw [Registry.has_iff.2 ((hs.sound i).added k hi)] at hk
    cases hk
  · exact Registry.has_iff.2 ((hs.sound i).present b k hb hi hk)

/-- A network on which every document describes a lamp. -/
def lampNetwork : Nat → Http.Network := fun _ _ =>
  .ok "<root><device><deviceType>lamp</deviceType><UDN>uuid:1</UDN></device></root>"

/-- Two calls in turn: both look for the lamp before either adds it. -/
def alternating : List (Bool × (Nat → Http.Network)) :=
  (List.replicate Registration.steps [(true, lampNetwork), (false, lampNetwork)]).flatten

def lampCalls : Registrations Bool :=
  (start fun _ => "http://lamp/").run alternating

/-- Both calls end well, but only one of them has added the lamp. -/
theorem lampCalls_register_once :
    IsComplete ("lamp", "uuid:1") ∧ lampCalls.registry.has "lamp" "uuid:1" = true ∧
    (∀ i, ((lampCalls.calls i).phase.result?.bind Except.toOption).isSome = true) ∧
    ∃! i, (lampCalls.calls i).Adds ("lamp", "uuid:1") := by
  have hcomplete : IsComplete ("lamp", "uuid:1") := ⟨by decide, by decide⟩
  have hhas : lampCalls.registry.has "lamp" "uuid:1" = true := by decide +kernel
  have hended : ∀ i, ((lampCalls.calls i).phase.result?.bind Except.toOption).isSome = true := by
    intro i
    cases i <;> decide +kernel
  obtain ⟨-, -, hone, -⟩ := run_start_registers_once (fun _ : Bool => "http://lamp/") alternating
  unfold lampCalls at hhas hended ⊢
  have hunique := (hone ("lamp", "uuid:1") hcomplete).1 hhas
  exact ⟨hcomplete, hhas, hended, hunique⟩

end Registrations

end Upnp
