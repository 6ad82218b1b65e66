import Upnp.Proofs.Serving.Call

/-
When an action runs. A request runs an action if it is posted to the control address of a service, names
an action of that service in its header, and carries a message that calls this very action; then, and only
then, is the application asked, once. What is answered otherwise depends on the first of these conditions
that fails, in their order, and each failure has an answer of its own.
-/

namespace Upnp

open Upnp.Text

namespace Responder

/-! ## What a request asks for -/

/-- The action header can be read, and has this name behind its last number sign once white space and then
quotes are taken off its ends. -/
def Names (request : Http.Request) (name : String) : Prop :=
  ∃ header front, request.header? Http.actionHeader = some header ∧
    trimMatches '"' (trim header) = front ++ "#" ++ name ∧ '#' ∉ name.toList ∧ name ≠ ""

/-- The request is posted to the control address of a service, which is the first that has it, and names
an action of the service's description, which is the first of its name. -/
structure Target (r : Responder) (request : Http.Request) (s : Service) (a : Action) : Prop where
  method : request.method = "POST"
  service : r.device.node.services.find? (·.controlUrl == request.path) = some s
  described : s.hasDescription = true
  action : ∃ name, Names request name ∧ s.actions.find? (·.name == name) = some a

theorem splitTextLast?_eq_some {c : Char} {s front name : String} : splitTextLast? c s = some (front, name) ↔
    s.toList = front.toList ++ c :: name.toList ∧ c ∉ name.toList := by
  constructor
  · intro h
    unfold splitTextLast? at h
    obtain ⟨⟨after, before⟩, hp, he⟩ := Option.map_eq_some_iff.1 h
    obtain ⟨rfl, rfl⟩ := Prod.mk.inj he
    have hsplit := congrArg List.reverse (splitOnce?_some hp)
    have hno : c ∉ after := fun hm => by
      obtain ⟨as, bs, rfl⟩ := List.append_of_mem hm
      exact not_infix_of_splitOnce? (List.cons_ne_nil _ _) hp ⟨as, bs, List.append_assoc ..⟩
    rw [String.toList_ofList, String.toList_ofList, List.mem_reverse]
    refine ⟨?_, hno⟩
    simpa using hsplit
  · rintro ⟨hs, hno⟩
    have hsplit := splitTextLast?_append hno front.toList
    rwa [← hs, String.ofList_toList, String.ofList_toList, String.ofList_toList] at hsplit

theorem actionName?_eq_some {header name : String} : actionName? header = some name ↔
    ∃ front, trimMatches '"' (trim header) = front ++ "#" ++ name ∧ '#' ∉ name.toList ∧ name ≠ "" := by
  have htext : ∀ front, trimMatches '"' (trim header) = front ++ "#" ++ name ↔
      (trimMatches '"' (trim header)).toList = front.toList ++ '#' :: name.toList := fun front => by
    rw [← String.toList_inj, String.toList_append, String.toList_append, List.append_assoc]
    rfl
  unfold actionName?
  simp only [htext]
  constructor
  · intro h
    split at h
    · rename_i front found hsplit
      split at h
      · cases h
      · rename_i hne
        cases h
        obtain ⟨hs, hno⟩ := splitTextLast?_eq_some.1 hsplit
        exact ⟨front, hs, hno, hne⟩
    · cases h
  · rintro ⟨front, hs, hno, hne⟩
    rw [splitTextLast?_eq_some.2 ⟨hs, hno⟩]
    exact if_neg hne

theorem actionOf?_eq_some {request : Http.Request} {name : String} :
    actionOf? request = some name ↔ Names request name := by
  unfold actionOf? Names
  rw [Option.bind_eq_some_iff]
  simp only [actionName?_eq_some, exists_and_left]

variable {r : Responder} {request : Http.Request} {s : Service} {a : Action}

theorem action_toOption_eq_some {name : String} : (s.action name).toOption = some a ↔
    s.hasDescription = true ∧ s.actions.find? (·.name == name) = some a := by
  unfold Service.action
  cases s.hasDescription with
  | false => exact ⟨fun h => (nomatch h), fun h => (nomatch h.1)⟩
  | true =>
    rw [Bool.not_true, if_neg Bool.false_ne_true, and_iff_right rfl]
    cases s.actions.find? (·.name == name) with
    | none => exact ⟨fun h => (nomatch h), fun h => (nomatch h)⟩
    | some b => exact Iff.rfl

/-- Routing finds the target of a request. -/
theorem route?_eq_some (hm : request.method = "POST") : r.route? request = some a ↔ ∃ s, r.Target request s a := by
  rw [route?_eq, Option.bind_eq_some_iff]
  refine exists_congr fun s => ?_
  rw [show (r.device.serviceByControlUrl request.path).toOption = _ from Device.findService_toOption ..,
    Option.bind_eq_some_iff]
  simp only [actionOf?_eq_some, action_toOption_eq_some]
  constructor
  · rintro ⟨hs, name, hname, hd, ha⟩
    exact ⟨hm, hs, hd, name, hname, ha⟩
  · rintro ⟨-, hs, hd, name, hname, ha⟩
    exact ⟨hs, name, hname, hd, ha⟩

/-! ## What comes of it -/

/-- The answer to a request that is none of the device's. -/
def elsewhere (r : Responder) (hook : Option Hook) (request : Http.Request) : Http.Response :=
  match hook with
  | some h => h request
  | none => r.statusResponse 400

/-- The answer once the application has dealt with an action: an action that belongs to a service is
answered with its output arguments. -/
inductive Completes (r : Responder) : Except Soap.Fault Action → Http.Response → Prop
  | done {b : Action} {l : ServiceLink} (h : b.service = some l) :
    Completes r (.ok b) (r.xmlResponse 200 (Soap.encodeResponse l.serviceType b.name (b.valuesIn .output)))
  | unattached {b : Action} (h : b.service = none) : Completes r (.ok b) (r.faultResponse (.standard 501))
  | failed (f : Soap.Fault) : Completes r (.error f) (r.faultResponse f)

/-- How requests are handled: the answer, the state of the application afterwards, and the actions that it
was called on. -/
inductive Handled {σ : Type} (r : Responder) (listener : Option (ActionListener σ)) (hook : Option Hook)
    (request : Http.Request) (state : σ) : Http.Response → σ → List Action → Prop
  | described {body : String} (hm : request.method = "GET") (h : r.descriptionAt? request.path = some body) :
    Handled r listener hook request state (r.xmlResponse 200 body) state []
  | foreign (hget : request.method = "GET" → r.descriptionAt? request.path = none)
    (hpost : ∀ s a, ¬ r.Target request s a) :
    Handled r listener hook request state (r.elsewhere hook request) state []
  /-- Nobody listens, whatever the message is. -/
  | unheard {s : Service} {a : Action} (h : r.Target request s a) (hl : listener = none) :
    Handled r listener hook request state (r.faultResponse (.standard 602)) state []
  | unreadable {s : Service} {a : Action} {e : Soap.Error} (h : r.Target request s a) (hl : listener ≠ none)
    (hbody : Soap.decodeRequest request.body = .error e) :
    Handled r listener hook request state (r.faultResponse (.standard 401)) state []
  /-- The message calls another action than the header names. -/
  | mismatched {s : Service} {a : Action} {call : Soap.Call} (h : r.Target request s a) (hl : listener ≠ none)
    (hbody : Soap.decodeRequest request.body = .ok call) (hname : call.name ≠ a.name) :
    Handled r listener hook request state (r.faultResponse (.standard 402)) state []
  | ran {s : Service} {a called : Action} {call : Soap.Call} {f : ActionListener σ} {answer : Http.Response}
    (h : r.Target request s a) (hl : listener = some f) (hbody : Soap.decodeRequest request.body = .ok call)
    (hname : call.name = a.name) (hcalled : a.applyRequest call = .ok called)
    (hanswer : r.Completes (f called state).1 answer) :
    Handled r listener hook request state answer (f called state).2 [called]

/-! ## Handling -/

/-- A request has one target at most. -/
theorem Target.unique {s' : Service} {a' : Action} (h : r.Target request s a) (h' : r.Target request s' a') :
    s = s' ∧ a = a' := by
  obtain ⟨name, hname, ha⟩ := h.action
  obtain ⟨name', hname', ha'⟩ := h'.action
  obtain rfl := Option.some.inj (h.service.symm.trans h'.service)
  obtain rfl := Option.some.inj ((actionOf?_eq_some.2 hname).symm.trans (actionOf?_eq_some.2 hname'))
  exact ⟨rfl, Option.some.inj (ha.symm.trans ha')⟩

theorem dispatch_of_target (h : r.Target request s a) (hasListener : Bool) :
    r.dispatch hasListener request = r.dispatchAction hasListener a request.body := by
  unfold dispatch
  simp only [h.method, (route?_eq_some h.method).2 ⟨s, h⟩]

theorem dispatch_of_not_target (hget : request.method = "GET" → r.descriptionAt? request.path = none)
    (hpost : ∀ s a, ¬ r.Target request s a) (hasListener : Bool) : r.dispatch hasListener request = .foreign := by
  unfold dispatch
  split
  · rename_i hm
    rw [hget hm]
  · rename_i hm
    cases hroute : r.route? request with
    | none => rfl
    | some a =>
      obtain ⟨s, h⟩ := (route?_eq_some hm).1 hroute
      exact absurd h (hpost s a)
  · rfl

theorem dispatch_of_description {body : String} (hm : request.method = "GET")
    (h : r.descriptionAt? request.path = some body) (hasListener : Bool) :
    r.dispatch hasListener request = .reply (r.xmlResponse 200 body) := by
  unfold dispatch
  simp only [hm, h]

/-- A message that calls the action is taken, and sets nothing but values. -/
theorem applyRequest_of_name {call : Soap.Call} (h : call.name = a.name) :
    a.applyRequest call = .ok { a with arguments := Action.assign a.arguments call.arguments } := by
  unfold Action.applyRequest
  rw [h, Action.setValues_eq]

theorem accept_of_error {body : Utf8.Octets} {e : Soap.Error} (h : Soap.decodeRequest body = .error e) (a : Action) :
    accept a body = .error .invalidAction := by
  unfold accept
  rw [h]

theorem accept_of_ne {body : Utf8.Octets} {call : Soap.Call} (h : Soap.decodeRequest body = .ok call)
    (hn : call.name ≠ a.name) : accept a body = .error .invalidArgs := by
  unfold accept Action.applyRequest Action.setValues
  rw [h]
  simp only [if_neg hn]
  rfl

theorem accept_of_ok {body : Utf8.Octets} {call : Soap.Call} {called : Action} (h : Soap.decodeRequest body = .ok call)
    (hc : a.applyRequest call = .ok called) : accept a body = .ok called := by
  unfold accept
  rw [h]
  simp only [hc]
  rfl

theorem completes_iff {result : Except Soap.Fault Action} {answer : Http.Response} :
    r.Completes result answer ↔ r.actionResponse result = answer := by
  constructor
  · rintro (⟨h⟩ | ⟨h⟩ | _)
    · simp only [actionResponse, Action.response, h]
    · simp only [actionResponse, Action.response, h, Soap.Fault.actionFailed]
    · rfl
  · rintro rfl
    cases result with
    | error f => exact .failed f
    | ok b =>
      cases hb : b.service with
      | none =>
        simp only [actionResponse, Action.response, hb]
        exact .unattached hb
      | some l =>
        simp only [actionResponse, Action.response, hb]
        exact .done hb

section

variable {σ : Type} {listener : Option (ActionListener σ)} {hook : Option Hook} {state : σ}

theorem handle_reply {answer : Http.Response} (h : r.dispatch listener.isSome request = .reply answer) :
    r.handle listener hook request state = (answer, state) := by
  unfold handle
  rw [h]

theorem handle_foreign (h : r.dispatch listener.isSome request = .foreign) :
    r.handle listener hook request state = (r.elsewhere hook request, state) := by
  unfold handle
  rw [h]
  rfl

/-- Handles a request, noting the actions that the listener is called on. -/
def handleNoting (r : Responder) (listener : Option (ActionListener σ)) (hook : Option Hook)
    (request : Http.Request) (state : σ) : Http.Response × σ × List Action :=
  r.handle (listener.map recording) hook request (state, [])

theorem Handled.handleNoting_eq {answer : Http.Response} {after : σ} {calls : List Action}
    (h : r.Handled listener hook request state answer after calls) :
    r.handleNoting listener hook request state = (answer, after, calls) := by
  unfold handleNoting
  cases h with
  | described hm hb => exact handle_reply (dispatch_of_description hm hb _)
  | foreign hget hpost => exact handle_foreign (dispatch_of_not_target hget hpost _)
  | unheard ht hl =>
    subst hl
    exact handle_reply (dispatch_of_target ht _)
  | unreadable ht hl hbody =>
    obtain ⟨f, rfl⟩ := Option.ne_none_iff_exists'.1 hl
    refine handle_reply ((dispatch_of_target ht _).trans ?_)
    simp only [dispatchAction, Option.map_some, Option.isSome_some, Bool.not_true, accept_of_error hbody]
    rfl
  | mismatched ht hl hbody hname =>
    obtain ⟨f, rfl⟩ := Option.ne_none_iff_exists'.1 hl
    refine handle_reply ((dispatch_of_target ht _).trans ?_)
    simp only [dispatchAction, Option.map_some, Option.isSome_some, Bool.not_true, accept_of_ne hbody hname]
    rfl
  | @ran s a called call f answer ht hl hbody hname hcalled hanswer =>
    subst hl
    have hinvoke : r.dispatch true request = .invoke called := by
      rw [dispatch_of_target ht]
      simp only [dispatchAction, Bool.not_true, accept_of_ok hbody hcalled]
      rfl
    rw [← completes_iff.1 hanswer]
    exact handle_invoke hinvoke (state, [])

/-- Every request is handled in one of these ways. -/
theorem exists_handled (r : Responder) (listener : Option (ActionListener σ)) (hook : Option Hook)
    (request : Http.Request) (state : σ) :
    ∃ answer after calls, r.Handled listener hook request state answer after calls := by
  by_cases ht : ∃ s a, r.Target request s a
  · obtain ⟨s, a, ht⟩ := ht
    cases listener with
    | none => exact ⟨_, _, _, .unheard ht rfl⟩
    | some f =>
      cases hbody : Soap.decodeRequest request.body with
      | error e => exact ⟨_, _, _, .unreadable ht (Option.some_ne_none f) hbody⟩
      | ok call =>
        by_cases hname : call.name = a.name
        · exact ⟨_, _, _, .ran ht rfl hbody hname (applyRequest_of_name hname) (completes_iff.2 rfl)⟩
        · exact ⟨_, _, _, .mismatched ht (Option.some_ne_none f) hbody hname⟩
  · have hpost : ∀ s a, ¬ r.Target request s a := fun s a h => ht ⟨s, a, h⟩
    by_cases hget : request.method = "GET" → r.descriptionAt? request.path = none
    · exact ⟨_, _, _, .foreign hget hpost⟩
    · obtain ⟨hm, hne⟩ := Classical.not_imp.1 hget
      obtain ⟨body, hb⟩ := Option.ne_none_iff_exists'.1 hne
      exact ⟨_, _, _, .described hm hb⟩

theorem handled_iff {answer : Http.Response} {after : σ} {calls : List Action} :
    r.Handled listener hook request state answer after calls ↔
      r.handleNoting listener hook request state = (answer, after, calls) := by
  refine ⟨Handled.handleNoting_eq, fun h => ?_⟩
  -- there is one way that handles it, and what it says is what comes of it
  obtain ⟨answer', after', calls', hh⟩ := exists_handled r listener hook request state
  obtain ⟨rfl, rfl, rfl⟩ : answer' = answer ∧ after' = after ∧ calls' = calls := by
    have heq := hh.handleNoting_eq.symm.trans h
    simpa only [Prod.mk.injEq] using heq
  exact hh

/-- The listener is called just when the request has a target, and its message calls this action. -/
theorem Handled.calls_ne_nil_iff {answer : Http.Response} {after : σ} {calls : List Action}
    (h : r.Handled listener hook request state answer after calls) : calls ≠ [] ↔ listener.isSome = true ∧
      ∃ s a call, r.Target request s a ∧ Soap.decodeRequest request.body = .ok call ∧ call.name = a.name := by
  cases h with
  | ran ht hl hbody hname hcalled =>
    exact iff_of_true (List.cons_ne_nil _ _) ⟨hl ▸ rfl, _, _, _, ht, hbody, hname⟩
  | described hm hb =>
    refine iff_of_false (fun h => h rfl) ?_
    rintro ⟨-, s, a, call, ht, -⟩
    rw [ht.method] at hm
    exact absurd hm (by decide)
  | foreign hget hpost =>
    refine iff_of_false (fun h => h rfl) ?_
    rintro ⟨-, s, a, call, ht, -⟩
    exact hpost s a ht
  | unheard ht hl =>
    refine iff_of_false (fun h => h rfl) ?_
    rintro ⟨hsome, -⟩
    rw [hl] at hsome
    cases hsome
  | unreadable ht hl hbody =>
    refine iff_of_false (fun h => h rfl) ?_
    rintro ⟨-, s, a, call, -, hok, -⟩
    rw [hbody] at hok
    cases hok
  | mismatched ht hl hbody hname =>
    refine iff_of_false (fun h => h rfl) ?_
    rintro ⟨-, s, a, call, ht', hok, hname'⟩
    obtain ⟨-, rfl⟩ := ht.unique ht'
    obtain rfl := Except.ok.inj (hbody.symm.trans hok)
    exact hname hname'

/-- The action that the listener is called on belongs to the service that the request was posted to. -/
theorem Handled.service_of_mem {answer : Http.Response} {after : σ} {calls : List Action}
    (h : r.Handled listener hook request state answer after calls) (hr : r.device.Reachable) :
    ∀ called ∈ calls, ∃ s ∈ r.device.node.services, s.controlUrl = request.path ∧ called.service = some s.link := by
  cases h with
  | @ran s a called call f answer ht hl hbody hname hcalled hanswer =>
    intro b hb
    obtain rfl := List.mem_singleton.1 hb
    have hs := List.mem_of_find?_eq_some ht.service
    obtain ⟨name, -, ha⟩ := ht.action
    have hlinked := ((hr.linked.1.services s hs).actions a (List.mem_of_find?_eq_some ha)).service
    have hpath := List.find?_some ht.service
    rw [applyRequest_of_name hname] at hcalled
    cases hcalled
    exact ⟨s, hs, beq_iff_eq.1 hpath, hlinked⟩
  | _ => exact fun called hc => absurd hc List.not_mem_nil

theorem Handled.length_calls_le {answer : Http.Response} {after : σ} {calls : List Action}
    (h : r.Handled listener hook request state answer after calls) : calls.length ≤ 1 := by
  cases h with
  | ran => exact Nat.le_refl _
  | _ => exact Nat.zero_le _

/-- Noting the calls changes nothing else. -/
theorem handle_eq_handleNoting (r : Responder) (listener : Option (ActionListener σ)) (hook : Option Hook)
    (request : Http.Request) (state : σ) : r.handle listener hook request state =
      ((r.handleNoting listener hook request state).1, (r.handleNoting listener hook request state).2.1) := by
  cases listener with
  | none =>
    unfold handleNoting handle
    simp only [Option.map_none, Option.isSome_none]
    cases r.dispatch false request <;> rfl
  | some f =>
    unfold handleNoting handle
    simp only [Option.map_some, Option.isSome_some]
    cases r.dispatch true request <;> rfl

theorem faultResponse_reports (r : Responder) {f : Soap.Fault} (h : f.code < 4294967296) :
    (r.faultResponse f).status = 500 ∧ Soap.decodeFault (Utf8.encode (r.faultResponse f).body) = .ok f :=
  ⟨rfl, Soap.decodeFault_encodeFault h⟩

/-- Each request is handled in exactly one of the ways that there are. The listener is called once at the
most, and this just if there is one, the request has a target and its message calls that very action; a
fault that is answered is read as that fault. -/
theorem handle_decides (r : Responder) (listener : Option (ActionListener σ)) (hook : Option Hook)
    (request : Http.Request) (state : σ) :
    let noted := r.handleNoting listener hook request state
    r.handle listener hook request state = (noted.1, noted.2.1) ∧
    (∀ answer after calls, noted = (answer, after, calls) ↔
      r.Handled listener hook request state answer after calls) ∧
    noted.2.2.length ≤ 1 ∧
    (noted.2.2 ≠ [] ↔ listener.isSome = true ∧ ∃ s a call, r.Target request s a ∧
      Soap.decodeRequest request.body = .ok call ∧ call.name = a.name) ∧
    (r.device.Reachable → ∀ called ∈ noted.2.2, ∃ s ∈ r.device.node.services,
      s.controlUrl = request.path ∧ called.service = some s.link) ∧
    ∀ f : Soap.Fault, f.code < 4294967296 →
      (r.faultResponse f).status = 500 ∧ Soap.decodeFault (Utf8.encode (r.faultResponse f).body) = .ok f := by
  intro noted
  have h : r.Handled listener hook request state noted.1 noted.2.1 noted.2.2 := handled_iff.2 rfl
  exact ⟨handle_eq_handleNoting .., fun _ _ _ => handled_iff.symm, h.length_calls_le, h.calls_ne_nil_iff,
    h.service_of_mem, fun f hf => r.faultResponse_reports hf⟩

end

/-! ## Requests to a lamp -/

/-- The control request for an action of this name, without arguments. -/
def controlRequest (name : String) : Http.Request :=
  ⟨"POST", "/control", [(Http.actionHeader, Utf8.encode ("\"urn:x:switch:1#" ++ name ++ "\""))],
    Utf8.encode (Soap.encodeRequest "urn:x:switch:1" name [])⟩

theorem target_controlRequest_set :
    (lampWith "Set").Target (controlRequest "Set") (switchOf "Set") (actionOf "Set") where
  method := rfl
  service := rfl
  described := rfl
  action := ⟨"Set", actionOf?_eq_some.1 (by decide), rfl⟩

theorem decodeRequest_controlRequest {name : String} (h : Soap.isLocalName name.toList = true) :
    Soap.decodeRequest (controlRequest name).body = .ok ⟨name, some "urn:x:switch:1", []⟩ := by
  have hnone : ∀ a ∈ ([] : List (String × String)), Soap.isLocalName a.1.toList = true := fun a ha => nomatch ha
  rw [controlRequest, Soap.decodeRequest_encodeRequest h "urn:x:switch:1" hnone]

/-- An application is called on the action of the service that the request was posted to; without an
application there is a fault, which is read as one. -/
theorem handle_decides_set :
    let heard := (lampWith "Set").handleNoting (some counting) none (controlRequest "Set") 0
    heard.2.2 ≠ [] ∧ (∀ called ∈ heard.2.2, ∃ s ∈ (lampWith "Set").device.node.services,
      s.controlUrl = "/control" ∧ called.service = some s.link) ∧
    (lampWith "Set").handleNoting (none : Option (ActionListener Nat)) none (controlRequest "Set") 0 =
      ((lampWith "Set").faultResponse (.standard 602), 0, []) ∧
    Soap.decodeFault (Utf8.encode ((lampWith "Set").faultResponse (.standard 602)).body) = .ok (.standard 602) := by
  have hbody : Soap.decodeRequest (controlRequest "Set").body = _ := decodeRequest_controlRequest (by decide)
  obtain ⟨-, -, -, hcalled, hservice, -⟩ :=
    (lampWith "Set").handle_decides (some counting) none (controlRequest "Set") 0
  obtain ⟨-, hunheard, -, -, -, hfault⟩ :=
    (lampWith "Set").handle_decides (none : Option (ActionListener Nat)) none (controlRequest "Set") 0
  exact ⟨hcalled.2 ⟨rfl, _, _, _, target_controlRequest_set, hbody, rfl⟩, hservice (lampWith_reachable "Set"),
    (hunheard _ _ _).2 (.unheard target_controlRequest_set rfl), (hfault (.standard 602) (by decide)).2⟩

/-- An application that puts an action of its own in the place of the one it is called on. -/
def replacing : ActionListener Nat := fun _ n =>
  (.ok { name := "Set" }, n + 1)

/-- A header with a letter beyond ASCII is not read, even though its text names an action of the service
and the message calls that action. And an action that belongs to no service is not answered with its
output arguments, even though the application reported no fault. -/
theorem handle_unreadable_unattached :
    ((lampWith "Öffnen").device.node.services.find? (·.controlUrl == (controlRequest "Öffnen").path) =
        some (switchOf "Öffnen") ∧
      trimMatches '"' (trim (Utf8.decodeLossy (Utf8.encode "\"urn:x:switch:1#Öffnen\""))) =
        "urn:x:switch:1" ++ "#" ++ "Öffnen" ∧
      (switchOf "Öffnen").hasDescription = true ∧
      (switchOf "Öffnen").actions.find? (·.name == "Öffnen") = some (actionOf "Öffnen") ∧
      (∃ call, Soap.decodeRequest (controlRequest "Öffnen").body = .ok call ∧ call.name = "Öffnen") ∧
      (lampWith "Öffnen").handleNoting (some counting) none (controlRequest "Öffnen") 0 =
        ((lampWith "Öffnen").statusResponse 400, 0, [])) ∧
    ∃ called, (replacing called 0).1.isOk = true ∧
      (lampWith "Set").handleNoting (some replacing) none (controlRequest "Set") 0 =
        ((lampWith "Set").faultResponse (.standard 501), 1, [called]) := by
  constructor
  · refine ⟨rfl, ?_, rfl, rfl, ⟨_, decodeRequest_controlRequest (by decide), rfl⟩, ?_⟩
    · rw [Utf8.decodeLossy_encode]
      decide
    · have hheader : (controlRequest "Öffnen").header? Http.actionHeader = none := by decide
      refine Handled.handleNoting_eq (.foreign (fun h => absurd h (by decide)) fun s a h => ?_)
      obtain ⟨name, ⟨header, front, hh, -⟩, -⟩ := h.action
      rw [hheader] at hh
      cases hh
  · have hbody : Soap.decodeRequest (controlRequest "Set").body = _ := decodeRequest_controlRequest (by decide)
    exact ⟨_, rfl, Handled.handleNoting_eq (.ran target_controlRequest_set rfl hbody rfl
      (applyRequest_of_name rfl) (.unattached rfl))⟩

end Responder

end Upnp
