import Mathlib.Data.List.ReduceOption
import Upnp.Proofs.Outcome
import Upnp.Ssdp.Server

/-
What a list of servers holds after any history of starts and stops. A start keeps a running server for
every interface on which a socket and a thread can be had, in the order of the interfaces, and reports the
last of the others; nothing is left of what was held before. Only where a thread of a server from before
has panicked is nothing started, and that is reported instead. Every socket that is not held is closed. A
search goes out once from each server that is held and can send.
-/

namespace Upnp.Ssdp

/-! ## One server -/

/-- The running server of a socket. -/
def Socket.server (s : Socket) : Server :=
  { socket := some s }

/-- What comes of waiting for a thread. -/
def joinOutcome (panicked : Bool) : Outcome ServerError :=
  if panicked then .error .panicked else .ok ()

/-- What comes of starting a server on an interface with what the system gives. -/
def startOutcome (i : Net.Interface) : Net.Grant → Outcome ServerError
  | .noSocket fault => .error (.bind i fault)
  | .noThread _ fault => .error (.io fault)
  | .full _ => .ok ()

/-- The socket that a server runs on, if it gets all that it needs. -/
def Socket.served? (i : Net.Interface) : Net.Grant → Option Socket
  | .full port => some ⟨i, port⟩
  | _ => none

/-- The socket that is closed again since there is no thread for it. -/
def Socket.unserved? (i : Net.Interface) : Net.Grant → Option Socket
  | .noThread port _ => some ⟨i, port⟩
  | _ => none

/-- What comes of sending, where this is wrong with it. -/
def sendOutcome (fault : Option String) : Outcome ServerError :=
  match fault with
  | none => .ok ()
  | some fault => .error (.io fault)

/-- A search for a target, as it is sent from a socket. -/
def searchFor (target : String) (mx : Nat) (source : Socket) : Sending :=
  ⟨source, (Packet.search target mx).toOctets⟩

theorem Server.search_server (fault : Option String) (target : String) (mx : Nat) (source : Socket) :
    source.server.search fault target mx =
      (if fault = none then some (searchFor target mx source) else none, sendOutcome fault) := by
  cases fault <;> rfl

theorem ServerList.startOn_eq (grant : Net.Grant) (i : Net.Interface) : startOn grant i =
    (((Socket.served? i grant).map Socket.server, (Socket.unserved? i grant).toList), startOutcome i grant) := by
  cases grant <;> rfl

theorem startOutcome_eq_ok_iff {i : Net.Interface} {grant : Net.Grant} :
    startOutcome i grant = .ok () ↔ ∃ port, grant = .full port := by
  cases grant with
  | noSocket fault => exact iff_of_false nofun nofun
  | noThread port fault => exact iff_of_false nofun nofun
  | full port => exact iff_of_true rfl ⟨port, rfl⟩

theorem joinOutcome_eq_ok_iff {panicked : Bool} : joinOutcome panicked = .ok () ↔ panicked = false := by
  cases panicked with
  | false => exact iff_of_true rfl rfl
  | true => exact iff_of_false nofun nofun

theorem sendOutcome_ne_closed (fault : Option String) : sendOutcome fault ≠ .error .closed := by
  cases fault <;> exact nofun

/-! ## Several servers -/

section

variable (binds : Binding) (interfaces : List Net.Interface)

/-- The sockets on interfaces that servers run on. -/
def Binding.sockets : List Socket :=
  interfaces.zipIdx.filterMap fun p => Socket.served? p.1 (binds p.2 p.1)

/-- The sockets on interfaces that are closed again. -/
def Binding.unserved : List Socket :=
  interfaces.zipIdx.filterMap fun p => Socket.unserved? p.1 (binds p.2 p.1)

/-- What comes of starting a server on each of several interfaces. -/
def Binding.outcomes : List (Outcome ServerError) :=
  interfaces.zipIdx.map fun p => startOutcome p.1 (binds p.2 p.1)

end

/-- Where nothing goes wrong, there is one socket for each interface. -/
theorem Binding.interfaces_sockets {binds : Binding} {interfaces : List Net.Interface}
    (h : ∀ o ∈ binds.outcomes interfaces, o = .ok ()) :
    (binds.sockets interfaces).map Socket.interface = interfaces := by
  rw [outcomes, List.forall_mem_map] at h
  rw [sockets, List.map_filterMap]
  conv_rhs => rw [← List.zipIdx_map_fst 0 interfaces, ← List.filterMap_eq_map]
  refine List.filterMap_congr fun p hp => ?_
  have hfine := h p hp
  cases hgrant : binds p.2 p.1 with
  | noSocket fault => exact absurd (hgrant ▸ hfine) nofun
  | noThread port fault => exact absurd (hgrant ▸ hfine) nofun
  | full port => rfl

/-- Where nothing goes wrong, no socket is closed again. -/
theorem Binding.unserved_eq_nil {binds : Binding} {interfaces : List Net.Interface}
    (h : ∀ o ∈ binds.outcomes interfaces, o = .ok ()) : binds.unserved interfaces = [] := by
  rw [outcomes, List.forall_mem_map] at h
  refine List.filterMap_eq_nil_iff.2 fun p hp => ?_
  have hfine := h p hp
  cases hgrant : binds p.2 p.1 with
  | noSocket fault => rfl
  | noThread port fault => exact absurd (hgrant ▸ hfine) nofun
  | full port => rfl

section

variable (sockets : List Socket)

/-- The thread of one of several sockets has panicked. -/
def Panics.Within (panics : Panics) : Prop :=
  ∃ p ∈ sockets.zipIdx, panics p.2 = true

instance (panics : Panics) : Decidable (panics.Within sockets) :=
  inferInstanceAs (Decidable (∃ p ∈ sockets.zipIdx, panics p.2 = true))

/-- What comes of waiting for the threads of several sockets. -/
def Panics.outcomes (panics : Panics) : List (Outcome ServerError) :=
  sockets.zipIdx.map fun p => joinOutcome (panics p.2)

/-- What is reported of waiting for the threads of several sockets. -/
def Panics.report (panics : Panics) : Outcome ServerError :=
  if panics.Within sockets then .error .panicked else .ok ()

/-- The sockets that can be sent from. -/
def Faults.sound (faults : Faults) : List Socket :=
  (sockets.zipIdx.filter fun p => faults p.2 = none).map Prod.fst

/-- What comes of sending from each of several sockets. -/
def Faults.outcomes (faults : Faults) : List (Outcome ServerError) :=
  sockets.zipIdx.map fun p => sendOutcome (faults p.2)

end

/-- Waiting for threads comes to no other error than that one has panicked, and to this just if one has. -/
theorem Panics.report_eq {panics : Panics} {sockets : List Socket} {o : Outcome ServerError}
    (h : Outcome.Reports (panics.outcomes sockets) o) : o = panics.report sockets := by
  have hfine : o = .ok () ↔ ¬ panics.Within sockets := by
    rw [h.eq_ok_iff, outcomes, List.forall_mem_map, Within]
    simp only [joinOutcome_eq_ok_iff, not_exists, not_and, Bool.not_eq_true]
  unfold report
  cases o with
  | ok u => rw [if_neg (hfine.1 rfl)]
  | error e =>
    rw [if_pos (not_not.1 (mt hfine.2 nofun))]
    obtain ⟨p, -, hjoined⟩ := List.mem_map.1 h.mem_of_error
    unfold joinOutcome at hjoined
    split at hjoined
    · exact hjoined.symm
    · cases hjoined

theorem Faults.map_sound {α : Type} (faults : Faults) (f : Socket → α) (sockets : List Socket) :
    (faults.sound sockets).map f =
      sockets.zipIdx.filterMap fun p => if faults p.2 = none then some (f p.1) else none := by
  rw [sound, List.map_map]
  generalize sockets.zipIdx = places
  induction places with
  | nil => rfl
  | cons p places ih => by_cases h : faults p.2 = none <;> simp [h, ih]

/-- Where nothing is wrong with sending, all sockets can be sent from. -/
theorem Faults.sound_eq {faults : Faults} {sockets : List Socket} (h : ∀ p ∈ sockets.zipIdx, faults p.2 = none) :
    faults.sound sockets = sockets := by
  rw [sound, List.filter_eq_self.2 fun p hp => decide_eq_true (h p hp), List.zipIdx_map_fst]

/-- The sockets of the servers that run. -/
def ServerList.sockets (l : ServerList) : List Socket :=
  l.servers.filterMap Server.socket

namespace ServerList

variable {l : ServerList} {sockets : List Socket}

/-- These sockets are held in this order, each by a running server, and nothing else is. -/
def Holds (l : ServerList) (sockets : List Socket) : Prop :=
  l.servers = sockets.map Socket.server

theorem Holds.sockets_eq (h : l.Holds sockets) : l.sockets = sockets := by
  rw [ServerList.sockets, h, List.filterMap_map]
  exact List.filterMap_some

theorem Holds.isRunning_of_mem (h : l.Holds sockets) {s : Server} (hs : s ∈ l.servers) : s.isRunning = true := by
  rw [h] at hs
  obtain ⟨socket, -, rfl⟩ := List.mem_map.1 hs
  rfl

/-- Trying something with the server of each socket is trying it with each socket. -/
theorem each_servers {β : Type} (f : Nat → Server → β × Outcome ServerError) (sockets : List Socket) :
    (Outcome.each f 0 (sockets.map Socket.server)).1 = sockets.zipIdx.map (fun p => (f p.2 p.1.server).1) ∧
    Outcome.Reports (sockets.zipIdx.map fun p => (f p.2 p.1.server).2)
      (Outcome.each f 0 (sockets.map Socket.server)).2 := by
  have hfst := Outcome.each_fst f 0 (sockets.map Socket.server)
  have hreports := Outcome.reports_each f 0 (sockets.map Socket.server)
  rw [List.zipIdx_map, List.map_map] at hfst hreports
  exact ⟨hfst, hreports⟩

/-- A stop leaves nothing, closes all that is held and reports a panic, if there was one. -/
theorem stop_of_holds (panics : Panics) (h : l.Holds sockets) :
    l.stop panics = ({}, sockets, panics.report sockets) := by
  obtain ⟨hclosed, hreports⟩ := each_servers (fun k s => (Server.stop (panics k) s).2) sockets
  have hsockets : (sockets.zipIdx.map fun p => [p.1]).flatten = sockets := by
    rw [← List.flatMap_def, ← List.map_eq_flatMap, List.zipIdx_map_fst]
  rw [stop, h]
  refine Prod.ext rfl (Prod.ext ?_ (Panics.report_eq hreports))
  exact (congrArg List.flatten hclosed).trans hsockets

/-- Of starting on each interface, the servers that run are kept and the sockets without a thread closed. -/
theorem each_startOn (binds : Binding) (interfaces : List Net.Interface) :
    let parts := Outcome.each (fun k i => startOn (binds k i) i) 0 interfaces
    parts.1.filterMap Prod.fst = (binds.sockets interfaces).map Socket.server ∧
    parts.1.flatMap Prod.snd = binds.unserved interfaces ∧
    Outcome.Reports (binds.outcomes interfaces) parts.2 := by
  have hparts := Outcome.each_fst (fun k i => startOn (binds k i) i) 0 interfaces
  have hreports := Outcome.reports_each (fun k i => startOn (binds k i) i) 0 interfaces
  simp only [startOn_eq] at hparts hreports ⊢
  refine ⟨?_, ?_, hreports⟩
  · rw [hparts, List.filterMap_map, Binding.sockets, List.map_filterMap]
    rfl
  · rw [hparts, List.flatMap_map, Binding.unserved, List.filterMap_eq_flatMap_toList]

/-- What a start comes to where these sockets are held, and in which case. In both, all that was held is
closed. -/
inductive Started (panics : Panics) (binds : Binding) (interfaces : List Net.Interface) (held : List Socket) :
    ServerList × List Socket × Outcome ServerError → Prop
  /-- A server is held for every interface that gives a socket and a thread, and the last other is reported. -/
  | anew {l : ServerList} {o : Outcome ServerError} (hjoined : ¬ panics.Within held)
    (hheld : l.Holds (binds.sockets interfaces)) (hreports : Outcome.Reports (binds.outcomes interfaces) o) :
    Started panics binds interfaces held (l, held ++ binds.unserved interfaces, o)
  /-- Nothing is held, since the thread of a server from before has panicked. -/
  | stuck {l : ServerList} (hpanicked : panics.Within held) (hheld : l.Holds []) :
    Started panics binds interfaces held (l, held, .error .panicked)

theorem started_start (panics : Panics) (binds : Binding) (interfaces : List Net.Interface) (h : l.Holds sockets) :
    Started panics binds interfaces sockets (l.start panics binds interfaces) := by
  rw [start, stop_of_holds panics h, Panics.report]
  by_cases hp : panics.Within sockets
  · rw [if_pos hp]
    exact .stuck hp rfl
  · obtain ⟨hheld, hclosed, hreports⟩ := each_startOn binds interfaces
    rw [if_neg hp]
    dsimp only
    rw [hheld, hclosed]
    exact .anew hp rfl hreports

/-- Unless a thread from before has panicked, a start succeeds just if a server runs on every interface; and if one
runs on all behind an interface that gives no socket, the error names that interface. -/
structure StartedAnew (binds : Binding) (interfaces : List Net.Interface)
    (result : ServerList × List Socket × Outcome ServerError) : Prop where
  held : result.1.Holds (binds.sockets interfaces)
  ok : result.2.2 = .ok () ↔ ∀ p ∈ interfaces.zipIdx, ∃ port, binds p.2 p.1 = .full port
  bind : ∀ (before after : List (Net.Interface × Nat)) (i : Net.Interface) (k : Nat) (fault : String),
    interfaces.zipIdx = before ++ (i, k) :: after → binds k i = .noSocket fault →
    (∀ p ∈ after, ∃ port, binds p.2 p.1 = .full port) → result.2.2 = .error (.bind i fault)

theorem Started.anew_of_joined {panics : Panics} {binds : Binding} {interfaces : List Net.Interface}
    {result : ServerList × List Socket × Outcome ServerError} (h : Started panics binds interfaces sockets result)
    (hjoined : ¬ panics.Within sockets) : StartedAnew binds interfaces result := by
  cases h with
  | stuck hpanicked _ => exact absurd hpanicked hjoined
  | anew _ hheld hreports =>
    refine ⟨hheld, ?_, fun before after i k fault hplaces hgrant hafter => ?_⟩
    · rw [hreports.eq_ok_iff, Binding.outcomes, List.forall_mem_map]
      simp only [startOutcome_eq_ok_iff]
    · rw [Binding.outcomes, hplaces, List.map_append, List.map_cons, hgrant] at hreports
      exact hreports.eq_error (List.forall_mem_map.2 fun p hp => startOutcome_eq_ok_iff.2 (hafter p hp))

/-- What a start of new servers comes to. -/
theorem start_new (panics : Panics) (binds : Binding) (interfaces : List Net.Interface) :
    ∃ l o, start panics binds interfaces {} = (l, binds.unserved interfaces, o) ∧
      l.Holds (binds.sockets interfaces) ∧ Outcome.Reports (binds.outcomes interfaces) o := by
  have hstarted := started_start panics binds interfaces (show Holds {} [] from rfl)
  generalize start panics binds interfaces {} = result at hstarted
  cases hstarted with
  | anew _ hheld hreports => exact ⟨_, _, rfl, hheld, hreports⟩
  | stuck hpanicked _ =>
    obtain ⟨p, hp, -⟩ := hpanicked
    exact absurd hp List.not_mem_nil

/-! ## Servers that need not be there -/

/-- The sockets that are held if there are servers. -/
def socketsOf (l : Option ServerList) : List Socket :=
  l.elim [] ServerList.sockets

theorem stopAny_eq (panics : Panics) {l : Option ServerList} (h : ∀ x ∈ l, x.Holds x.sockets) :
    stopAny panics l = (socketsOf l, panics.report (socketsOf l)) := by
  cases l with
  | none => rfl
  | some x => exact congrArg Prod.snd (stop_of_holds panics (h x rfl))

/-! ## Searches -/

/-- What a search for a target comes to where these sockets are held. -/
structure Searched (faults : Faults) (target : String) (mx : Nat) (held : List Socket)
    (result : List Sending × Outcome ServerError) : Prop where
  /-- The same is sent once from each socket that can be sent from. -/
  sent : result.1 = (faults.sound held).map (searchFor target mx)
  /-- Nothing is tried just if there are no servers. -/
  closed : result.2 = .error .closed ↔ held = []
  reports : held ≠ [] → Outcome.Reports (faults.outcomes held) result.2

theorem searched_search (faults : Faults) (target : String) (mx : Nat) (h : l.Holds sockets) :
    Searched faults target mx sockets (l.search faults target mx) := by
  rw [search, h]
  cases sockets with
  | nil => exact ⟨rfl, iff_of_true rfl rfl, fun hne => absurd rfl hne⟩
  | cons source sockets =>
    obtain ⟨hsent, hreports⟩ := each_servers (fun k s => Server.search (faults k) target mx s) (source :: sockets)
    simp only [Server.search_server] at hsent hreports
    rw [if_neg nofun]
    refine ⟨?_, iff_of_false (fun hclosed => ?_) nofun, fun _ => hreports⟩
    · dsimp only
      rw [hsent, List.reduceOption, List.filterMap_map, Faults.map_sound]
      rfl
    -- sending comes to other errors
    · rw [hclosed] at hreports
      obtain ⟨p, -, hfault⟩ := List.mem_map.1 hreports.mem_of_error
      exact sendOutcome_ne_closed _ hfault

/-! ## Histories -/

/-- What a list of servers may be asked to do. -/
inductive Request where
  | start (panics : Panics) (binds : Binding) (interfaces : List Net.Interface)
  | stop (panics : Panics)

/-- What a request comes to. -/
def handle (l : ServerList) : Request → ServerList × List Socket × Outcome ServerError
  | .start panics binds interfaces => l.start panics binds interfaces
  | .stop panics => l.stop panics

/-- The list after requests. -/
def after (requests : List Request) : ServerList :=
  requests.foldl (fun l r => (l.handle r).1) {}

/-- The sockets that are held after a request where these were held before it. -/
def Request.holds (held : List Socket) : Request → List Socket
  | .start panics binds interfaces => if panics.Within held then [] else binds.sockets interfaces
  | .stop _ => []

/-- The sockets that are held after requests. -/
def held (requests : List Request) : List Socket :=
  requests.foldl Request.holds []

theorem holds_handle (h : l.Holds sockets) (r : Request) : (l.handle r).1.Holds (r.holds sockets) := by
  cases r with
  | stop panics =>
    rw [handle, stop_of_holds panics h]
    rfl
  | start panics binds interfaces =>
    have hstarted := started_start panics binds interfaces h
    rw [handle, Request.holds]
    generalize l.start panics binds interfaces = result at hstarted
    cases hstarted with
    | anew hjoined hheld _ => rwa [if_neg hjoined]
    | stuck hpanicked hheld => rwa [if_pos hpanicked]

theorem holds_foldl (h : l.Holds sockets) (requests : List Request) :
    (requests.foldl (fun l r => (l.handle r).1) l).Holds (requests.foldl Request.holds sockets) := by
  induction requests generalizing l sockets with
  | nil => exact h
  | cons r requests ih => exact ih (holds_handle h r)

theorem holds_after (requests : List Request) : (after requests).Holds (held requests) :=
  holds_foldl (l := {}) (show Holds {} [] from rfl) requests

/-- After any history of starts and stops, a list holds just the sockets that are told by the history, each by a
running server. A further start closes them and holds instead, in order, one for every interface that gives a
socket and a thread, with the error of the last other; unless one of their threads has panicked, for then that
is reported and nothing held. A stop holds nothing and reports such a panic alone. And a search is refused for
want of servers just if there are none; else the same goes out once from each of them, or where sending from
some fails, from each other, and the last failure is reported. -/
theorem after_holds (requests : List Request) :
    (after requests).Holds (held requests) ∧
    (∀ s ∈ (after requests).servers, s.isRunning = true) ∧
    (∀ (panics : Panics) (binds : Binding) (interfaces : List Net.Interface),
      Started panics binds interfaces (held requests) ((after requests).start panics binds interfaces) ∧
      (¬ panics.Within (held requests) →
        StartedAnew binds interfaces ((after requests).start panics binds interfaces))) ∧
    (∀ panics : Panics, (after requests).stop panics = ({}, held requests, panics.report (held requests))) ∧
    ∀ (faults : Faults) (target : String) (mx : Nat),
      Searched faults target mx (held requests) ((after requests).search faults target mx) ∧
      ((∀ p ∈ (held requests).zipIdx, faults p.2 = none) →
        ((after requests).search faults target mx).1 = (held requests).map (searchFor target mx)) := by
  have h := holds_after requests
  refine ⟨h, fun _ => h.isRunning_of_mem, fun panics binds interfaces => ?_, fun panics => stop_of_holds panics h,
    fun faults target mx => ?_⟩
  · have hstarted := started_start panics binds interfaces h
    exact ⟨hstarted, hstarted.anew_of_joined⟩
  have hsearched := searched_search faults target mx h
  refine ⟨hsearched, fun hfaultless => ?_⟩
  rw [hsearched.sent, Faults.sound_eq hfaultless]

/-- A start on three interfaces, the last of them the first again, where the second gives no socket. -/
def Request.twoOfThree : Request :=
  .start (fun _ => false) (fun k _ => if k = 1 then .noSocket "in use" else .full (5000 + k))
    [.loopback, ⟨"eth0", "10.0.0.5"⟩, .loopback]

/-- Two servers are held, both of them search, and a panic of the second is reported when they are stopped. The same
start once more names the interface without a socket. -/
theorem after_holds_twoOfThree :
    (after [.twoOfThree, .stop fun _ => false, .twoOfThree]).servers =
      [⟨some ⟨.loopback, 5000⟩⟩, ⟨some ⟨.loopback, 5002⟩⟩] ∧
    ((after [.twoOfThree, .stop fun _ => false, .twoOfThree]).handle .twoOfThree).2.2 =
      .error (.bind ⟨"eth0", "10.0.0.5"⟩ "in use") ∧
    ((after [.twoOfThree, .stop fun _ => false, .twoOfThree]).search (fun _ => none) "ssdp:all" 3).1 =
      [searchFor "ssdp:all" 3 ⟨.loopback, 5000⟩, searchFor "ssdp:all" 3 ⟨.loopback, 5002⟩] ∧
    (after [.twoOfThree, .stop fun _ => false, .twoOfThree]).stop (· == 1) =
      ({}, [⟨.loopback, 5000⟩, ⟨.loopback, 5002⟩], .error .panicked) := by
  obtain ⟨hholds, -, hstart, hstop, hsearch⟩ := after_holds [.twoOfThree, .stop fun _ => false, .twoOfThree]
  refine ⟨hholds, ?_, (hsearch (fun _ => none) "ssdp:all" 3).2 fun _ _ => rfl, hstop (· == 1)⟩
  refine ((hstart _ _ _).2 (by decide)).bind [(.loopback, 0)] [(.loopback, 2)] _ 1 "in use" rfl rfl ?_
  exact List.forall_mem_singleton.2 ⟨5002, rfl⟩

end ServerList

end Upnp.Ssdp
