import Upnp.Control.Point
import Upnp.Proofs.Device.Revision
import Upnp.Proofs.Ssdp.Servers

/-
The life cycles of a device server and of a control point. Whatever starts and stops there were, a device
server holds its web server and a receiver on every interface or nothing at all, and a control point holds
a receiver and a searcher on every interface or none of them. A start that does not get all that it needs
closes what it has got, leaves nothing held and says what was missing; one that finds that a thread from
before has panicked reports this and leaves nothing held either.
-/

namespace Upnp

open Ssdp (ServerList)

/-! ## Serving a device -/

namespace DeviceServer

variable {s : DeviceServer}

/-- All is held that serving takes: a web server on a port, and receivers of searches on these sockets. -/
structure Serves (s : DeviceServer) (sockets : List Ssdp.Socket) (port : Nat) : Prop where
  http : s.http = some port
  port : s.port = some port
  multicast : ∃ l, s.multicast = some l ∧ l.Holds sockets

/-- Either all or nothing is held. -/
def Whole (s : DeviceServer) : Prop :=
  (∃ sockets port, s.Serves sockets port) ∨ s.Idle

/-- The sockets of the receivers that are held. -/
def receivers (s : DeviceServer) : List Ssdp.Socket :=
  ServerList.socketsOf s.multicast

/-- All that is held, in the order in which it is closed. -/
def listeners (s : DeviceServer) : List Listener :=
  s.receivers.map .ssdp ++ (s.http.map .web).toList

/-- What is reported of waiting for the threads of all that is held: that of the web server comes last. -/
def Panics.report (panics : Panics) (s : DeviceServer) : Outcome DeviceServerError :=
  Outcome.andThen ((panics.multicast.report s.receivers).mapError DeviceServerError.ssdp)
    (if s.http.isSome ∧ panics.http then .error .panicked else .ok ())

/-- What a stop comes to: all is closed and the device kept. -/
structure Stopped (panics : Panics) (s : DeviceServer)
    (result : DeviceServer × List Listener × Outcome DeviceServerError) : Prop where
  idle : result.1.Idle
  device : result.1.device = s.device
  closed : result.2.1 = s.listeners
  outcome : result.2.2 = panics.report s
  unchanged : s.isRunning = false → result = (s, [], .ok ())

/-- What a start comes to, with what it closes, and in which case. -/
inductive Started (panics : Panics) (grants : Grants) (interfaces : List Net.Interface) (s : DeviceServer) :
    DeviceServer → List Listener → Outcome DeviceServerError → Prop
  | full {t : DeviceServer} {port : Nat} (hjoined : panics.report s = .ok ()) (hhttp : grants.http = .full port)
    (hreceivers : Outcome.Reports (grants.multicast.outcomes interfaces) (.ok ()))
    (h : t.Serves (grants.multicast.sockets interfaces) port)
    (hinterfaces : (grants.multicast.sockets interfaces).map Ssdp.Socket.interface = interfaces) :
    Started panics grants interfaces s t s.listeners (.ok ())
  | noWebSocket {t : DeviceServer} {fault : String} (hjoined : panics.report s = .ok ())
    (hhttp : grants.http = .noSocket fault) (h : t.Idle) :
    Started panics grants interfaces s t s.listeners (.error (.http fault))
  | noWebThread {t : DeviceServer} {port : Nat} {fault : String} (hjoined : panics.report s = .ok ())
    (hhttp : grants.http = .noThread port fault) (h : t.Idle) :
    Started panics grants interfaces s t (s.listeners ++ [.web port]) (.error (.http fault))
  | noReceiver {t : DeviceServer} {port : Nat} {e : Ssdp.ServerError} (hjoined : panics.report s = .ok ())
    (hhttp : grants.http = .full port)
    (hreceivers : Outcome.Reports (grants.multicast.outcomes interfaces) (.error e)) (h : t.Idle) :
    Started panics grants interfaces s t
      (s.listeners ++ (grants.multicast.unserved interfaces ++ grants.multicast.sockets interfaces).map .ssdp ++
        [.web port]) (.error (.ssdp e))
  /-- A thread from before has panicked. -/
  | stuck {t : DeviceServer} {e : DeviceServerError} (hpanicked : panics.report s = .error e) (h : t.Idle) :
    Started panics grants interfaces s t s.listeners (.error e)

theorem Serves.isRunning_eq {sockets : List Ssdp.Socket} {port : Nat} (h : s.Serves sockets port) :
    s.isRunning = true :=
  congrArg Option.isSome h.http

theorem Idle.isRunning_eq (h : s.Idle) : s.isRunning = false :=
  congrArg Option.isSome h.http

/-- All receivers that are held run. -/
theorem Whole.receivers_run (h : s.Whole) : ∀ l ∈ s.multicast, l.Holds l.sockets := by
  intro l hl
  rcases h with ⟨sockets, port, hserves⟩ | hidle
  · obtain ⟨m, hm, hheld⟩ := hserves.multicast
    cases hm.symm.trans hl
    rwa [hheld.sockets_eq]
  · cases hidle.multicast.symm.trans hl

theorem stop_eq (h : s.Whole) (panics : Panics) : s.stop panics =
    ({ s with http := none, multicast := none, port := none }, s.listeners, panics.report s) := by
  rw [stop, ServerList.stopAny_eq panics.multicast h.receivers_run, listeners, Panics.report]
  cases s.http with
  | none => simp [stopWeb, receivers]
  | some port => simp [stopWeb, receivers]

theorem stopped_stop (h : s.Whole) (panics : Panics) : Stopped panics s (s.stop panics) := by
  refine ⟨idle_stop panics s, rfl, ?_, ?_, fun hstopped => ?_⟩
  · rw [stop_eq h]
  · rw [stop_eq h]
  · rcases h with ⟨sockets, port, hserves⟩ | hidle
    · exact absurd hserves.isRunning_eq (Bool.eq_false_iff.1 hstopped)
    · exact hidle.stop_eq panics

theorem started_start (h : s.Whole) (uuid : Nat → String) (i : Nat) (panics undone : Panics) (grants : Grants)
    (interfaces : List Net.Interface) :
    let result := s.start uuid i panics undone grants interfaces
    Started panics grants interfaces s result.1 result.2.2.1 result.2.2.2 := by
  rw [start, stop_eq h]
  cases hjoined : panics.report s with
  | error e => exact .stuck hjoined ⟨rfl, rfl, rfl⟩
  | ok u =>
    cases hhttp : grants.http with
    | noSocket fault => exact .noWebSocket hjoined hhttp ⟨rfl, rfl, rfl⟩
    | noThread port fault => exact .noWebThread hjoined hhttp ⟨rfl, rfl, rfl⟩
    | full port =>
      obtain ⟨l, o, hnew, hheld, hreports⟩ := ServerList.start_new undone.multicast grants.multicast interfaces
      simp only [hnew]
      cases o with
      | error e =>
        simp only [ServerList.stop_of_holds undone.multicast hheld]
        exact .noReceiver hjoined hhttp hreports ⟨rfl, rfl, rfl⟩
      | ok u =>
        have hall := hreports.eq_ok_iff.1 rfl
        simp only [Ssdp.Binding.unserved_eq_nil hall, List.map_nil, List.append_nil]
        exact .full hjoined hhttp hreports ⟨rfl, rfl, l, rfl, hheld⟩ (Ssdp.Binding.interfaces_sockets hall)

theorem Started.whole {panics : Panics} {grants : Grants} {interfaces : List Net.Interface} {t : DeviceServer}
    {closed : List Listener} {o : Outcome DeviceServerError} (h : Started panics grants interfaces s t closed o) :
    t.Whole := by
  cases h with
  | full _ _ _ h _ => exact .inl ⟨_, _, h⟩
  | noWebSocket _ _ h => exact .inr h
  | noWebThread _ _ h => exact .inr h
  | noReceiver _ _ _ h => exact .inr h
  | stuck _ h => exact .inr h

theorem whole_handle (uuid : Nat → String) {state : DeviceServer × Nat} (h : state.1.Whole) (r : Request) :
    (handle uuid state r).1.Whole := by
  cases r with
  | start panics undone grants interfaces =>
    exact (started_start h uuid state.2 panics undone grants interfaces).whole
  | stop panics => exact .inr (idle_stop panics state.1)

theorem whole_foldl (uuid : Nat → String) {state : DeviceServer × Nat} (h : state.1.Whole) (requests : List Request) :
    (requests.foldl (handle uuid) state).1.Whole :=
  List.foldlRecOn (motive := fun state => state.1.Whole) requests (handle uuid) h fun _ h r _ => whole_handle uuid h r

/-- What is true between any two calls. -/
structure Consistent (s : DeviceServer) : Prop where
  /-- Either all or nothing is held. -/
  whole : s.Whole
  running : s.isRunning = true ↔ ∃ sockets port, s.Serves sockets port
  port : s.port.isSome = s.isRunning
  stop : ∀ panics : Panics, Stopped panics s (s.stop panics)
  start : ∀ (uuid : Nat → String) (i : Nat) (panics undone : Panics) (grants : Grants)
    (interfaces : List Net.Interface),
    let result := s.start uuid i panics undone grants interfaces
    Started panics grants interfaces s result.1 result.2.2.1 result.2.2.2

theorem Whole.consistent (h : s.Whole) : s.Consistent where
  whole := h
  running := by
    rcases h with ⟨sockets, port, hserves⟩ | hidle
    · exact iff_of_true hserves.isRunning_eq ⟨sockets, port, hserves⟩
    · have hstopped := Bool.eq_false_iff.1 hidle.isRunning_eq
      exact iff_of_false hstopped fun ⟨_, _, hserves⟩ => hstopped hserves.isRunning_eq
  port := by
    unfold isRunning
    rcases h with ⟨sockets, port, hserves⟩ | hidle
    · rw [hserves.port, hserves.http]
    · rw [hidle.port, hidle.http]
  stop := stopped_stop h
  start := started_start h

end DeviceServer

/-! ## Control points -/

namespace ControlPoint

variable {c : ControlPoint}

/-- All is held that listening takes: receivers of announcements on these sockets and searchers on those. -/
structure Serves (c : ControlPoint) (receivers searchers : List Ssdp.Socket) : Prop where
  multicast : ∃ l, c.multicast = some l ∧ l.Holds receivers
  unicast : ∃ l, c.unicast = some l ∧ l.Holds searchers

/-- Nothing is held. -/
structure Idle (c : ControlPoint) : Prop where
  multicast : c.multicast = none
  unicast : c.unicast = none

/-- Either all or nothing is held. -/
def Whole (c : ControlPoint) : Prop :=
  (∃ receivers searchers, c.Serves receivers searchers) ∨ c.Idle

/-- All that is held, in the order in which it is closed. -/
def listeners (c : ControlPoint) : List Ssdp.Socket :=
  ServerList.socketsOf c.multicast ++ ServerList.socketsOf c.unicast

/-- What is reported of waiting for the threads of all that is held. -/
def Panics.report (panics : Panics) (c : ControlPoint) : Outcome ControlPointError :=
  (Outcome.andThen (panics.multicast.report (ServerList.socketsOf c.multicast))
    (panics.unicast.report (ServerList.socketsOf c.unicast))).mapError .ssdp

/-- What a stop comes to: all is closed and everything else kept. -/
structure Stopped (panics : Panics) (c : ControlPoint)
    (result : ControlPoint × List Ssdp.Socket × Outcome ControlPointError) : Prop where
  idle : result.1.Idle
  rest : c = { result.1 with multicast := c.multicast, unicast := c.unicast }
  closed : result.2.1 = c.listeners
  outcome : result.2.2 = panics.report c
  unchanged : c.isRunning = false → result = (c, [], .ok ())

/-- What a start comes to, with what it closes, and in which case. -/
inductive Started (panics : Panics) (grants : Grants) (interfaces : List Net.Interface) (port : Nat)
    (c : ControlPoint) : ControlPoint → List Ssdp.Socket → Outcome ControlPointError → Prop
  | full {t : ControlPoint} (hjoined : panics.report c = .ok ())
    (hreceivers : Outcome.Reports (grants.multicast.outcomes interfaces) (.ok ()))
    (hsearchers : Outcome.Reports ((grants.unicast port).outcomes interfaces) (.ok ()))
    (h : t.Serves (grants.multicast.sockets interfaces) ((grants.unicast port).sockets interfaces))
    (hinterfaces : (grants.multicast.sockets interfaces).map Ssdp.Socket.interface = interfaces ∧
      ((grants.unicast port).sockets interfaces).map Ssdp.Socket.interface = interfaces)
    (hport : t.port = some port) : Started panics grants interfaces port c t c.listeners (.ok ())
  | noReceiver {t : ControlPoint} {e : Ssdp.ServerError} (hjoined : panics.report c = .ok ())
    (hreceivers : Outcome.Reports (grants.multicast.outcomes interfaces) (.error e))
    (h : t.Idle) (hport : t.port = c.port) :
    Started panics grants interfaces port c t
      (c.listeners ++ grants.multicast.unserved interfaces ++ grants.multicast.sockets interfaces) (.error (.ssdp e))
  | noSearcher {t : ControlPoint} {e : Ssdp.ServerError} (hjoined : panics.report c = .ok ())
    (hreceivers : Outcome.Reports (grants.multicast.outcomes interfaces) (.ok ()))
    (hsearchers : Outcome.Reports ((grants.unicast port).outcomes interfaces) (.error e))
    (h : t.Idle) (hport : t.port = c.port) :
    Started panics grants interfaces port c t
      (c.listeners ++ (grants.unicast port).unserved interfaces ++ (grants.unicast port).sockets interfaces ++
        grants.multicast.sockets interfaces) (.error (.ssdp e))
  /-- A thread from before has panicked. -/
  | stuck {t : ControlPoint} {e : ControlPointError} (hpanicked : panics.report c = .error e) (h : t.Idle)
    (hport : t.port = c.port) : Started panics grants interfaces port c t c.listeners (.error e)

theorem idle_stop (panics : Panics) (c : ControlPoint) : (c.stop panics).1.Idle :=
  ⟨rfl, rfl⟩

theorem Idle.stop_eq (h : c.Idle) (panics : Panics) : c.stop panics = (c, [], .ok ()) := by
  obtain ⟨searchMx, port, discovery, multicast, unicast⟩ := c
  obtain ⟨rfl, rfl⟩ := h
  rfl

theorem Serves.isRunning_eq {receivers searchers : List Ssdp.Socket} (h : c.Serves receivers searchers) :
    c.isRunning = true := by
  obtain ⟨l, hl, -⟩ := h.unicast
  exact congrArg Option.isSome hl

theorem Idle.isRunning_eq (h : c.Idle) : c.isRunning = false :=
  congrArg Option.isSome h.unicast

/-- All servers that are held run. -/
theorem Whole.servers_run (h : c.Whole) :
    (∀ l ∈ c.multicast, l.Holds l.sockets) ∧ ∀ l ∈ c.unicast, l.Holds l.sockets := by
  rcases h with ⟨receivers, searchers, hserves⟩ | hidle
  · obtain ⟨m, hm, hreceivers⟩ := hserves.multicast
    obtain ⟨u, hu, hsearchers⟩ := hserves.unicast
    refine ⟨fun l hl => ?_, fun l hl => ?_⟩
    · cases hm.symm.trans hl
      rwa [hreceivers.sockets_eq]
    · cases hu.symm.trans hl
      rwa [hsearchers.sockets_eq]
  · exact ⟨fun l hl => (nomatch hidle.multicast.symm.trans hl), fun l hl => (nomatch hidle.unicast.symm.trans hl)⟩

theorem stop_eq (h : c.Whole) (panics : Panics) : c.stop panics =
    ({ c with multicast := none, unicast := none }, c.listeners, panics.report c) := by
  rw [stop, ServerList.stopAny_eq panics.multicast h.servers_run.1,
    ServerList.stopAny_eq panics.unicast h.servers_run.2]
  rfl

theorem stopped_stop (h : c.Whole) (panics : Panics) : Stopped panics c (c.stop panics) := by
  refine ⟨idle_stop panics c, rfl, ?_, ?_, fun hstopped => ?_⟩
  · rw [stop_eq h]
  · rw [stop_eq h]
  · rcases h with ⟨receivers, searchers, hserves⟩ | hidle
    · exact absurd hserves.isRunning_eq (Bool.eq_false_iff.1 hstopped)
    · exact hidle.stop_eq panics

theorem started_start (h : c.Whole) (panics undone : Panics) (grants : Grants) (interfaces : List Net.Interface)
    (port : Nat) :
    let result := c.start panics undone grants interfaces port
    Started panics grants interfaces port c result.1 result.2.1 result.2.2 := by
  rw [start, stop_eq h]
  cases hjoined : panics.report c with
  | error e => exact .stuck hjoined ⟨rfl, rfl⟩ rfl
  | ok u =>
    obtain ⟨m, received, hnew, hreceivers, hreports⟩ :=
      ServerList.start_new undone.multicast grants.multicast interfaces
    simp only [hnew]
    cases received with
    | error e =>
      simp only [ServerList.stop_of_holds undone.multicast hreceivers]
      exact .noReceiver hjoined hreports ⟨rfl, rfl⟩ rfl
    | ok u =>
      have hall := hreports.eq_ok_iff.1 rfl
      obtain ⟨l, searched, hnew', hsearchers, hreports'⟩ :=
        ServerList.start_new undone.unicast (grants.unicast port) interfaces
      simp only [hnew', Ssdp.Binding.unserved_eq_nil hall, List.append_nil]
      cases searched with
      | error e =>
        simp only [ServerList.stop_of_holds undone.multicast hreceivers,
          ServerList.stop_of_holds undone.unicast hsearchers]
        exact .noSearcher hjoined hreports hreports' ⟨rfl, rfl⟩ rfl
      | ok u =>
        have hall' := hreports'.eq_ok_iff.1 rfl
        simp only [Ssdp.Binding.unserved_eq_nil hall', List.append_nil]
        exact .full hjoined hreports hreports' ⟨⟨m, rfl, hreceivers⟩, l, rfl, hsearchers⟩
          ⟨Ssdp.Binding.interfaces_sockets hall, Ssdp.Binding.interfaces_sockets hall'⟩ rfl

theorem Started.whole {panics : Panics} {grants : Grants} {interfaces : List Net.Interface} {port : Nat}
    {t : ControlPoint} {closed : List Ssdp.Socket} {o : Outcome ControlPointError}
    (h : Started panics grants interfaces port c t closed o) : t.Whole := by
  cases h with
  | full _ _ _ h _ _ => exact .inl ⟨_, _, h⟩
  | noReceiver _ _ h _ => exact .inr h
  | noSearcher _ _ _ h _ => exact .inr h
  | stuck _ h _ => exact .inr h

/-- What is true between any two calls. -/
structure Consistent (c : ControlPoint) : Prop where
  /-- Either all or nothing is held. -/
  whole : c.Whole
  running : c.isRunning = true ↔ ∃ receivers searchers, c.Serves receivers searchers
  stop : ∀ panics : Panics, Stopped panics c (c.stop panics)
  start : ∀ (panics undone : Panics) (grants : Grants) (interfaces : List Net.Interface) (port : Nat),
    let result := c.start panics undone grants interfaces port
    Started panics grants interfaces port c result.1 result.2.1 result.2.2

theorem Whole.consistent (h : c.Whole) : c.Consistent where
  whole := h
  running := by
    rcases h with ⟨receivers, searchers, hserves⟩ | hidle
    · exact iff_of_true hserves.isRunning_eq ⟨receivers, searchers, hserves⟩
    · have hstopped := Bool.eq_false_iff.1 hidle.isRunning_eq
      exact iff_of_false hstopped fun ⟨_, _, hserves⟩ => hstopped hserves.isRunning_eq
  stop := stopped_stop h
  start := started_start h

/-! ## Histories of a control point -/

/-- What a control point may be asked to do. -/
inductive Request where
  | start (panics undone : Panics) (grants : Grants) (interfaces : List Net.Interface) (port : Nat)
  | stop (panics : Panics)

/-- The control point after a request. -/
def handle (c : ControlPoint) : Request → ControlPoint
  | .start panics undone grants interfaces port => (c.start panics undone grants interfaces port).1
  | .stop panics => (c.stop panics).1

/-- The port of a request that is a start and succeeds. -/
def Request.port? (c : ControlPoint) : Request → Option Nat
  | .start panics undone grants interfaces port =>
    match (c.start panics undone grants interfaces port).2.2 with
    | .ok () => some port
    | .error _ => none
  | .stop _ => none

/-- The control point after requests, and the ports of the starts that succeeded. -/
def run (c : ControlPoint) : List Request → ControlPoint × List Nat
  | [] => (c, [])
  | r :: rest =>
    let (t, ports) := run (c.handle r) rest
    (t, (r.port? c).toList ++ ports)

theorem whole_handle (h : c.Whole) (r : Request) : (c.handle r).Whole := by
  cases r with
  | start panics undone grants interfaces port => exact (started_start h panics undone grants interfaces port).whole
  | stop panics => exact .inr (idle_stop panics c)

/-- The port changes to that of a start that succeeds, and not otherwise. -/
theorem port_handle (h : c.Whole) (r : Request) : (c.handle r).port = (r.port? c).or c.port := by
  cases r with
  | stop panics => rfl
  | start panics undone grants interfaces port =>
    have hstarted := started_start h panics undone grants interfaces port
    rw [Request.port?, handle]
    generalize c.start panics undone grants interfaces port = result at hstarted
    obtain ⟨t, closed, o⟩ := result
    dsimp only at hstarted ⊢
    cases hstarted with
    | full _ _ _ _ _ hport => exact hport
    | noReceiver _ _ _ hport => exact hport
    | noSearcher _ _ _ _ hport => exact hport
    | stuck _ _ hport => exact hport

theorem run_spec (h : c.Whole) (requests : List Request) :
    (c.run requests).1.Whole ∧ (c.run requests).1.port = (c.run requests).2.getLast?.or c.port := by
  induction requests generalizing c with
  | nil => exact ⟨h, rfl⟩
  | cons r requests ih =>
    obtain ⟨hwhole, hport⟩ := ih (whole_handle h r)
    refine ⟨hwhole, hport.trans ?_⟩
    rw [port_handle h, run]
    cases r.port? c with
    | none => rfl
    | some port =>
      cases hlast : (run (c.handle r) requests).2.getLast? <;> simp [List.getLast?_cons, hlast]

end ControlPoint

/-- Whatever calls were made of a device server or a control point, it holds all that it listens with or
nothing. A further start holds all or, with the error of what is missing or has panicked, nothing, and has then
closed all that it had got. Stopping closes everything, and changes nothing and succeeds where nothing is held.
The port of a control point is that of the latest start that succeeded. -/
theorem listeners_all_or_none :
    (∀ (uuid : Nat → String) (d : Device) (i : Nat) (requests : List DeviceServer.Request),
      (requests.foldl (DeviceServer.handle uuid) ({ device := d }, i)).1.Consistent) ∧
    ∀ (searchMx : Nat) (discovery : Discovery) (requests : List ControlPoint.Request),
      (ControlPoint.run { searchMx, discovery } requests).1.Consistent ∧
      (ControlPoint.run { searchMx, discovery } requests).1.port =
        (ControlPoint.run { searchMx, discovery } requests).2.getLast? := by
  refine ⟨fun uuid d i requests => (DeviceServer.whole_foldl uuid (.inr ⟨rfl, rfl, rfl⟩) requests).consistent,
    fun searchMx discovery requests => ?_⟩
  obtain ⟨hwhole, hport⟩ := ControlPoint.run_spec (c := { searchMx, discovery }) (.inr ⟨rfl, rfl⟩) requests
  exact ⟨hwhole.consistent, hport.trans Option.or_none⟩

end Upnp
