import Upnp.Proofs.Action.Values
import Upnp.Proofs.Device.Links
import Upnp.Proofs.Serving.Header
import Upnp.Proofs.Serving.Routing
import Upnp.Proofs.Soap.Fault

/-
Calling an action from end to end. The request that a client's copy of an action posts reaches the
action that it is a copy of, with the client's values; what the application makes of it comes back
as the client's values or as the very fault that the application reported.
-/

namespace Upnp

open Upnp.Text Upnp.Markup Upnp.Xml

/-! ## Actions that can be called -/

/-- The action is the first of its name in the first service with its control address, and type and
names are such that a message can carry them. -/
structure Responder.Callable (r : Responder) (s : Service) (a : Action) : Prop where
  reachable : r.device.Reachable
  service : r.device.serviceByControlUrl s.controlUrl = .ok s
  action : s.action a.name = .ok a
  name : Soap.isLocalName a.name.toList = true
  arguments : ∀ x ∈ a.arguments, Soap.isLocalName x.name.toList = true
  distinct : a.argumentNames.Nodup
  visibleType : ∀ c ∈ s.serviceType.toList, isVisibleChar c = true
  visibleName : ∀ c ∈ a.name.toList, isVisibleChar c = true

/-- A client's copy of an action: the values may be any. -/
structure Action.CopyOf (s : Service) (a client : Action) : Prop where
  shape : client.SameShape a
  service : ∃ l, client.service = some l ∧ l.serviceType = s.serviceType

namespace Responder

variable {r : Responder} {s : Service} {a : Action}

theorem service_mem {d : Device} {url : String} {s : Service} (h : d.serviceByControlUrl url = .ok s) :
    s ∈ d.node.services := by
  have ho := Device.findService_toOption d url (·.controlUrl == url)
  rw [show d.findService url (·.controlUrl == url) = .ok s from h] at ho
  exact List.mem_of_find?_eq_some ho.symm

theorem action_mem {name : String} (h : s.action name = .ok a) : a ∈ s.actions := by
  unfold Service.action at h
  split at h
  · cases h
  · split at h
    · rename_i hf
      cases h
      exact List.mem_of_find?_eq_some hf
    · cases h

/-- A callable action knows its service. -/
theorem Callable.linked (h : r.Callable s a) : a.service = some s.link :=
  ((h.reachable.linked.1.services s (service_mem h.service)).actions a (action_mem h.action)).service

/-! ## An exchange -/

/-- What comes of a request that is handed to a device at a path, and the application's state. -/
def exchange {σ : Type} (r : Responder) (listener : ActionListener σ) (hook : Option Hook) (path : String) (state : σ)
    (p : Http.Post) : Http.Posted × σ :=
  let answer := r.handle (some listener) hook
    ⟨"POST", path, [(Http.actionHeader, Utf8.encode p.actionValue)], Utf8.encode p.body⟩ state
  (Http.posted (some ⟨answer.1.status, Utf8.encode answer.1.body⟩), answer.2)

/-- The listener, noting the actions that it is called on. -/
def recording {σ : Type} (listener : ActionListener σ) : ActionListener (σ × List Action) := fun a (state, calls) =>
  ((listener a state).1, (listener a state).2, calls ++ [a])

/-- The listener leaves all but values as it is. -/
def KeepsAllButValues {σ : Type} (listener : ActionListener σ) : Prop :=
  ∀ a state b, (listener a state).1 = .ok b → a.SameBesidesValues b

theorem posted_encode (status : Nat) (body : String) :
    Http.posted (some ⟨status, Utf8.encode body⟩) = .ok (status, body) := by
  unfold Http.posted Http.Reply.text Utf8.encode
  simp only [Utf8.decodeMarking_encodeChars, String.ofList_toList]

theorem isLocalName_of_mem_names {b : Action} (h : b.SameShape a)
    (ha : ∀ x ∈ a.arguments, Soap.isLocalName x.name.toList = true) :
    ∀ n ∈ b.argumentNames, Soap.isLocalName n.toList = true := by
  intro n hn
  rw [h.argumentNames] at hn
  obtain ⟨x, hx, rfl⟩ := List.mem_map.1 hn
  exact ha x hx

theorem isLocalName_of_mem_valuesIn {b : Action} (h : b.SameShape a)
    (ha : ∀ x ∈ a.arguments, Soap.isLocalName x.name.toList = true) (d : Direction) :
    ∀ p ∈ b.valuesIn d, Soap.isLocalName p.1.toList = true := fun p hp =>
  isLocalName_of_mem_names h ha p.1 (Action.names_valuesOf_subset d b.arguments (List.mem_map_of_mem hp))

/-! ## The request -/

theorem request_ok {client : Action} (hc : Action.CopyOf s a client) {p : Http.Post} (hp : client.request = .ok p) :
    p.action = s.serviceType ++ "#" ++ a.name ∧
      p.body = Soap.encodeRequest s.serviceType a.name (client.valuesIn .input) := by
  obtain ⟨l, hl, ht⟩ := hc.service
  unfold Action.request at hp
  rw [hl] at hp
  simp only at hp
  split at hp
  · cases hp
  · cases hp
    rw [ht, hc.shape.name]
    exact ⟨rfl, rfl⟩

theorem accept_request (h : r.Callable s a) {client : Action} (hc : Action.CopyOf s a client) :
    accept a (Utf8.encode (Soap.encodeRequest s.serviceType a.name (client.valuesIn .input))) =
      .ok (a.takeValues .input client) := by
  unfold accept
  rw [Soap.decodeRequest_encodeRequest h.name s.serviceType (isLocalName_of_mem_valuesIn hc.shape h.arguments .input)]
  show (a.setValues a.name (client.valuesIn .input)).mapError _ = _
  rw [Action.setValues_valuesIn hc.shape.symm h.distinct]
  rfl

/-- The request of a copy is dispatched to the listener with the values of the copy. -/
theorem dispatch_request (h : r.Callable s a) {client : Action} (hc : Action.CopyOf s a client) {p : Http.Post}
    (hp : client.request = .ok p) :
    r.dispatch true ⟨"POST", s.controlUrl, [(Http.actionHeader, Utf8.encode p.actionValue)], Utf8.encode p.body⟩ =
      .invoke (a.takeValues .input client) := by
  obtain ⟨haction, hbody⟩ := request_ok hc hp
  have hvalue : p.actionValue = "\"" ++ (s.serviceType ++ "#" ++ a.name) ++ "\"" := by
    unfold Http.Post.actionValue
    rw [haction]
  have hvisible : ∀ c ∈ p.actionValue.toList, isVisibleChar c = true := by
    intro c hm
    rw [hvalue] at hm
    simp only [String.toList_append, List.mem_append] at hm
    rcases hm with (hm | (hm | hm) | hm) | hm
    · rw [List.mem_singleton.1 hm]; decide
    · exact h.visibleType c hm
    · rw [List.mem_singleton.1 hm]; decide
    · exact h.visibleName c hm
    · rw [List.mem_singleton.1 hm]; decide
  have hname : actionOf? ⟨"POST", s.controlUrl, [(Http.actionHeader, Utf8.encode p.actionValue)],
      Utf8.encode p.body⟩ = some a.name := by
    unfold actionOf?
    rw [header?_visible hvisible, Option.bind_some, hvalue,
      actionName?_written (Soap.isLocalName_iff.1 h.name).1]
  have hroute : r.route? ⟨"POST", s.controlUrl, [(Http.actionHeader, Utf8.encode p.actionValue)],
      Utf8.encode p.body⟩ = some a := by
    rw [route?_eq, hname]
    simp only [h.service, Except.toOption, Option.bind_some, h.action]
  have haccept := accept_request h hc
  unfold dispatch
  simp only [hroute]
  unfold dispatchAction
  rw [hbody, haccept]
  rfl

/-! ## The answer -/

theorem complete_response {client b : Action} (hn : Soap.isLocalName client.name.toList = true)
    (ha : ∀ x ∈ client.arguments, Soap.isLocalName x.name.toList = true) (hd : client.argumentNames.Nodup)
    (hb : client.SameShape b) (serviceType : String) :
    client.complete (.ok (200, Soap.encodeResponse serviceType client.name (b.valuesIn .output))) =
      .ok (client.takeValues .output b) := by
  unfold Action.complete
  simp only [if_true]
  rw [Soap.decodeResponse_encodeResponse hn serviceType (isLocalName_of_mem_valuesIn hb.symm ha .output)]
  exact Action.setValues_valuesIn hb hd .output

theorem complete_fault (client : Action) {f : Soap.Fault} (hc : f.code < 4294967296) :
    client.complete (.ok (500, Soap.encodeFault f)) = .error (.rejected f) := by
  unfold Action.complete
  simp only [Nat.reduceEqDiff, if_false]
  rw [Soap.decodeFault_encodeFault hc]

theorem handle_invoke {σ : Type} {listener : ActionListener σ} {hook : Option Hook} {request : Http.Request}
    {called : Action} (hd : r.dispatch true request = .invoke called) (state : σ) :
    r.handle (some listener) hook request state =
      (r.actionResponse (listener called state).1, (listener called state).2) := by
  unfold handle
  rw [Option.isSome_some, hd]

theorem exchange_request (h : r.Callable s a) {client : Action} (hc : Action.CopyOf s a client) {p : Http.Post}
    (hp : client.request = .ok p) {σ : Type} (listener : ActionListener σ) (hook : Option Hook) (state : σ) :
    let result := listener (a.takeValues .input client) state
    r.exchange listener hook s.controlUrl state p =
      (.ok ((r.actionResponse result.1).status, (r.actionResponse result.1).body), result.2) := by
  unfold exchange
  rw [handle_invoke (dispatch_request h hc hp)]
  simp only [posted_encode]

theorem exchange_recording (h : r.Callable s a) {client : Action} (hc : Action.CopyOf s a client) {p : Http.Post}
    (hp : client.request = .ok p) {σ : Type} (listener : ActionListener σ) (hook : Option Hook) (state : σ)
    (calls : List Action) :
    let result := listener (a.takeValues .input client) state
    r.exchange (recording listener) hook s.controlUrl (state, calls) p =
      (.ok ((r.actionResponse result.1).status, (r.actionResponse result.1).body),
        (result.2, calls ++ [a.takeValues .input client])) :=
  exchange_request h hc hp (recording listener) hook (state, calls)

theorem actionResponse_ok {b : Action} (hb : b.service = some s.link) : r.actionResponse (.ok b) =
    r.xmlResponse 200 (Soap.encodeResponse s.serviceType b.name (b.valuesIn .output)) := by
  unfold actionResponse Action.response
  simp only [hb]
  rfl

/-! ## The call -/

/-- A call from end to end: the listener is called once, on the action with the client's values; what
it leaves in the output arguments arrives in the client's, which change in nothing else, and a fault
that it reports arrives as that fault. -/
theorem post_exchange (h : r.Callable s a) {client : Action} (hc : Action.CopyOf s a client) {p : Http.Post}
    (hp : client.request = .ok p) {σ : Type} {listener : ActionListener σ} (hk : KeepsAllButValues listener)
    (hook : Option Hook) (state : σ) (calls : List Action) :
    let called := a.takeValues .input client
    let device := r.exchange (recording listener) hook s.controlUrl (state, calls)
    called.SameShape a ∧ called.valuesIn .input = client.valuesIn .input ∧
    (device p).2 = ((listener called state).2, calls ++ [called]) ∧
    (∀ b, (listener called state).1 = .ok b → ∃ after, client.post (fun q => (device q).1) = .ok after ∧
      client.SameBesidesValues after ∧ after.valuesIn .output = b.valuesIn .output ∧
      after.arguments.filter (·.direction != .output) = client.arguments.filter (·.direction != .output)) ∧
    ∀ f, (listener called state).1 = .error f → f.code < 4294967296 →
      client.post (fun q => (device q).1) = .error (.rejected f) := by
  intro called device
  have hcalled : called.SameShape a := Action.takeValues_sameShape hc.shape.symm .input
  have hdevice : device p = (.ok ((r.actionResponse (listener called state).1).status,
      (r.actionResponse (listener called state).1).body), ((listener called state).2, calls ++ [called])) :=
    exchange_recording h hc hp listener hook state calls
  -- the client sends the very request that the device was given
  have hpost : client.post (fun q => (device q).1) = client.complete (device p).1 := by
    unfold Action.post
    rw [hp]
    rfl
  have hclientName : Soap.isLocalName client.name.toList = true := hc.shape.name ▸ h.name
  have hclientArguments : ∀ x ∈ client.arguments, Soap.isLocalName x.name.toList = true := fun x hx =>
    isLocalName_of_mem_names hc.shape h.arguments x.name (List.mem_map_of_mem hx)
  refine ⟨hcalled, Action.valuesIn_takeValues hc.shape.symm .input, ?_, fun b hb => ?_, fun f hf hcode => ?_⟩
  · rw [hdevice]
  · -- what the listener leaves has the shape of the client's copy and belongs to the service
    have hkeep := hk called state b hb
    have hshape : client.SameShape b := (hc.shape.trans hcalled.symm).trans hkeep.shape
    have hservice : b.service = some s.link := hkeep.service.symm.trans h.linked
    have hanswer : (device p).1 =
        .ok (200, Soap.encodeResponse s.serviceType client.name (b.valuesIn .output)) := by
      rw [hdevice, hb, actionResponse_ok hservice, hshape.name]
      rfl
    refine ⟨client.takeValues .output b, ?_, Action.takeValues_sameBesidesValues hshape .output,
      Action.valuesIn_takeValues hshape .output, Action.takeValues_others hshape .output⟩
    rw [hpost, hanswer, complete_response hclientName hclientArguments (hc.shape.argumentNames ▸ h.distinct) hshape]
  · have hanswer : (device p).1 = .ok (500, Soap.encodeFault f) := by
      rw [hdevice, hf]
      rfl
    rw [hpost, hanswer, complete_fault client hcode]

/-! ## A call -/

/-- A lamp whose switch has one action of this name. -/
def lampWith (name : String) : Responder where
  device := (((Device.named "urn:lamp" "Lamp").apply (.urlBase "http://lamp/")).apply (.service
    { serviceType := "urn:x:switch:1", serviceId := "switch", controlUrl := "/control", hasDescription := true
      actions := [{ name, arguments := [{ name := "On", direction := .input }, { name := "Was", direction := .output }] }] }))
  server := ""
  port := 80

theorem lampWith_reachable (name : String) : (lampWith name).device.Reachable :=
  .change (.change (.named "urn:lamp" "Lamp") (.urlBase _)) (.service _)

/-- The switch as the lamp holds it. -/
def switchOf (name : String) : Service :=
  (lampWith name).device.node.services.get ⟨0, Nat.zero_lt_one⟩

def actionOf (name : String) : Action :=
  (switchOf name).actions.get ⟨0, Nat.zero_lt_one⟩

/-- A client's copy of the action with a value that has to be escaped. -/
def clientOf (name : String) : Action :=
  (actionOf name).modifyArgument "On" (·.setValue "<1> & \"2\"")

/-- An application that counts the calls and answers each. -/
def counting : ActionListener Nat := fun a n =>
  (.ok { a with arguments := a.arguments.map fun x => x.setValue (if x.isOutput then "]]>" else x.value) }, n + 1)

theorem counting_keepsAllButValues : KeepsAllButValues counting := by
  intro a n b h
  cases h
  refine ⟨rfl, rfl, ?_⟩
  rw [List.map_map]
  rfl

/-- The control request of the client. -/
def postOf (name : String) : Http.Post :=
  ((clientOf name).request.toOption).getD ⟨"", "", ""⟩

theorem clientOf_copyOf (name : String) : Action.CopyOf (switchOf name) (actionOf name) (clientOf name) where
  shape := ⟨rfl, rfl⟩
  service := ⟨_, rfl, rfl⟩

/-- A value with markup in it arrives at the lamp, and so does its answer at the client. -/
theorem post_exchange_set :
    (lampWith "Set").Callable (switchOf "Set") (actionOf "Set") ∧
    Action.CopyOf (switchOf "Set") (actionOf "Set") (clientOf "Set") ∧
    (clientOf "Set").request = .ok (postOf "Set") ∧
    (actionOf "Set").takeValues .input (clientOf "Set") = clientOf "Set" ∧
    ((lampWith "Set").exchange (recording counting) none "/control" (0, []) (postOf "Set")).2 = (1, [clientOf "Set"]) ∧
    ∃ after, (clientOf "Set").post (fun q =>
        ((lampWith "Set").exchange (recording counting) none "/control" (0, []) q).1) = .ok after ∧
      (clientOf "Set").SameBesidesValues after ∧ after.valuesIn .output = [("Was", "]]>")] := by
  have hcallable : (lampWith "Set").Callable (switchOf "Set") (actionOf "Set") :=
    { reachable := lampWith_reachable "Set"
      service := rfl
      action := rfl
      name := by decide
      arguments := by decide
      distinct := by decide
      visibleType := List.all_eq_true.1 (by decide)
      visibleName := List.all_eq_true.1 (by decide) }
  have hrequest : (clientOf "Set").request = .ok (postOf "Set") := rfl
  have hvalues : (actionOf "Set").takeValues .input (clientOf "Set") = clientOf "Set" := rfl
  obtain ⟨_, _, hcalls, hanswer, _⟩ := post_exchange hcallable (clientOf_copyOf "Set") hrequest
    counting_keepsAllButValues none 0 []
  obtain ⟨after, hafter, hsame, houtput, _⟩ := hanswer _ rfl
  exact ⟨hcallable, clientOf_copyOf "Set", hrequest, hvalues, hcalls, after, hafter, hsame, houtput⟩

/-- A name beyond ASCII makes a header that is not read: the call never reaches the listener. -/
theorem exchange_unreadable_name :
    (lampWith "É").device.Reachable ∧
    (lampWith "É").device.serviceByControlUrl (switchOf "É").controlUrl = .ok (switchOf "É") ∧
    (switchOf "É").action (actionOf "É").name = .ok (actionOf "É") ∧
    Soap.isLocalName (actionOf "É").name.toList = true ∧
    (∀ x ∈ (actionOf "É").arguments, Soap.isLocalName x.name.toList = true) ∧
    (actionOf "É").argumentNames.Nodup ∧
    (∀ c ∈ (switchOf "É").serviceType.toList, isVisibleChar c = true) ∧
    Action.CopyOf (switchOf "É") (actionOf "É") (clientOf "É") ∧
    (clientOf "É").request = .ok (postOf "É") ∧
    KeepsAllButValues counting ∧
    (lampWith "É").exchange (recording counting) none (switchOf "É").controlUrl (0, []) (postOf "É") =
      (.ok (400, ""), (0, [])) := by
  refine ⟨lampWith_reachable "É", rfl, rfl, by decide, by decide, by decide,
    List.all_eq_true.1 (by decide), clientOf_copyOf "É", rfl, counting_keepsAllButValues, ?_⟩
  have hdispatch : (lampWith "É").dispatch true ⟨"POST", (switchOf "É").controlUrl,
      [(Http.actionHeader, Utf8.encode (postOf "É").actionValue)], Utf8.encode (postOf "É").body⟩ = .foreign := by
    -- the header holds an octet that is not visible, so it names no action
    have hroute : (lampWith "É").route? ⟨"POST", (switchOf "É").controlUrl,
        [(Http.actionHeader, Utf8.encode (postOf "É").actionValue)], Utf8.encode (postOf "É").body⟩ = none := by
      rw [route?_eq, actionOf?, header?_single, if_neg (by decide)]
      rfl
    unfold dispatch
    simp only [hroute]
  unfold exchange handle
  rw [Option.isSome_some, hdispatch]
  rfl

end Responder

end Upnp
