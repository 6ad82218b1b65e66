import Upnp.Action.Control
import Upnp.Proofs.Action.Copying
import Upnp.Proofs.Soap.Fault

/-
Invoking an action. Whatever comes of the control request, the action changes only when it is answered
with status 200 by a message that is read as a response of this very action; in all other cases it stays
what it was. The errors tell the cases apart: a device that reports a fault has rejected the action, and
neither a device that cannot be reached nor an answer that cannot be read is taken for a rejection.
-/

namespace Upnp

open Upnp.Text

/-! ## Rejections -/

namespace ActionError

theorem fault?_eq_some {e : ActionError} {f : Soap.Fault} : e.fault? = some f ↔ e = .rejected f := by
  cases e with
  | rejected g => exact Option.some_inj.trans (ActionError.rejected.injEq g f ▸ Iff.rfl)
  | _ => exact ⟨fun h => (nomatch h), fun h => (nomatch h)⟩

theorem isRejected_iff {e : ActionError} : e.isRejected = true ↔ ∃ f, e.fault? = some f := by
  cases e with
  | rejected f => exact ⟨fun _ => ⟨f, rfl⟩, fun _ => rfl⟩
  | _ => exact ⟨fun h => (nomatch h), fun ⟨_, h⟩ => (nomatch h)⟩

end ActionError

namespace Action

/-! ## Answers -/

/-- What an answer to a control request says: the call that it carries, or why there is none. -/
def answered : Http.Posted → Except ActionError Soap.Call
  | .error e => .error (.http e)
  | .ok (status, body) =>
    if status = 200 then (Soap.decodeResponse (Utf8.encode body)).mapError .soap
    else
      match Soap.decodeFault (Utf8.encode body) with
      | .ok f => .error (.rejected f)
      | .error e => .error (.soap e)

theorem answered_of_success (body : String) :
    answered (.ok (200, body)) = (Soap.decodeResponse (Utf8.encode body)).mapError .soap :=
  rfl

theorem answered_of_failure {status : Nat} (h : status ≠ 200) (body : String) :
    answered (.ok (status, body)) =
      match Soap.decodeFault (Utf8.encode body) with
      | .ok f => .error (.rejected f)
      | .error e => .error (.soap e) :=
  if_neg h

theorem complete_eq (a : Action) (answer : Http.Posted) :
    a.complete answer = (answered answer).bind fun call => a.setValues call.name call.arguments := by
  unfold complete answered
  cases answer with
  | error e => rfl
  | ok reply =>
    obtain ⟨status, body⟩ := reply
    by_cases hs : status = 200
    · simp only [if_pos hs]
      cases Soap.decodeResponse (Utf8.encode body) <;> rfl
    · simp only [if_neg hs]
      cases Soap.decodeFault (Utf8.encode body) <;> rfl

/-- Invokes the action over a network, changing it in place. -/
def InPlace.post (network : Http.Post → Http.Posted) : InPlace Unit := do
  let p ← (← get).request
  let call ← answered (network p)
  setValues call.name call.arguments

/-- What has to succeed before a change begins leaves the action alone when it fails. -/
theorem InPlace.Performs.after {α : Type} {first : Except ActionError α} {change : α → InPlace Unit} {a : Action}
    {result : α → Except ActionError Action} (h : ∀ x, first = .ok x → (change x).Performs a (result x)) :
    InPlace.Performs (do change (← first)) a (first.bind result) := by
  cases first with
  | error e => rfl
  | ok x => exact h x rfl

theorem InPlace.performs_post (network : Http.Post → Http.Posted) (a : Action) :
    (InPlace.post network).Performs a (a.post network) := by
  show InPlace.Performs (do
    let p ← a.request
    let call ← answered (network p)
    setValues call.name call.arguments) a (a.request.bind fun p => a.complete (network p))
  simp only [complete_eq]
  exact .after fun p _ => .after fun call _ => performs_setValues call.name call.arguments a

/-! ## How an invocation ends -/

/-- How the invocation of an action ends. -/
inductive Invoked (network : Http.Post → Http.Posted) (a : Action) : Except ActionError Action → Prop
  /-- There is no request: the action belongs to no service, or the service has no URL. -/
  | unsent {e : ActionError} (h : a.request = .error e) : Invoked network a (.error e)
  | unreached {p : Http.Post} {e : Http.Error} (hp : a.request = .ok p) (h : network p = .error e) :
    Invoked network a (.error (.http e))
  | completed {p : Http.Post} {body : String} {call : Soap.Call} {b : Action} (hp : a.request = .ok p)
    (h : network p = .ok (200, body)) (hc : Soap.decodeResponse (Utf8.encode body) = .ok call)
    (hn : call.name = a.name) (hb : CopiedByName call.arguments a b) : Invoked network a (.ok b)
  /-- The response is one of another action. -/
  | mismatched {p : Http.Post} {body : String} {call : Soap.Call} (hp : a.request = .ok p)
    (h : network p = .ok (200, body)) (hc : Soap.decodeResponse (Utf8.encode body) = .ok call)
    (hn : call.name ≠ a.name) : Invoked network a (.error (.nameMismatch a.name call.name))
  | unreadable {p : Http.Post} {body : String} {e : Soap.Error} (hp : a.request = .ok p)
    (h : network p = .ok (200, body)) (hc : Soap.decodeResponse (Utf8.encode body) = .error e) :
    Invoked network a (.error (.soap e))
  | rejected {p : Http.Post} {status : Nat} {body : String} {f : Soap.Fault} (hp : a.request = .ok p)
    (h : network p = .ok (status, body)) (hs : status ≠ 200) (hf : Soap.decodeFault (Utf8.encode body) = .ok f) :
    Invoked network a (.error (.rejected f))
  | faultless {p : Http.Post} {status : Nat} {body : String} {e : Soap.Error} (hp : a.request = .ok p)
    (h : network p = .ok (status, body)) (hs : status ≠ 200) (hf : Soap.decodeFault (Utf8.encode body) = .error e) :
    Invoked network a (.error (.soap e))

variable {network : Http.Post → Http.Posted} {a : Action}

theorem post_of_request {p : Http.Post} (h : a.request = .ok p) :
    a.post network = (answered (network p)).bind fun call => a.setValues call.name call.arguments := by
  rw [post, h, ← complete_eq]
  rfl

theorem invoked_post (network : Http.Post → Http.Posted) (a : Action) : Invoked network a (a.post network) := by
  cases hp : a.request with
  | error e =>
    rw [post, hp]
    exact .unsent hp
  | ok p =>
    rw [post_of_request hp]
    cases hn : network p with
    | error e => exact .unreached hp hn
    | ok reply =>
      obtain ⟨status, body⟩ := reply
      by_cases hs : status = 200
      · subst hs
        rw [answered_of_success]
        cases hc : Soap.decodeResponse (Utf8.encode body) with
        | error e => exact .unreadable hp hn hc
        | ok call =>
          show Invoked network a (a.setValues call.name call.arguments)
          by_cases hname : call.name = a.name
          · rw [hname, setValues_eq]
            exact .completed hp hn hc hname (copiedByName_iff.2 rfl)
          · rw [setValues, if_neg hname]
            exact .mismatched hp hn hc hname
      · rw [answered_of_failure hs]
        cases hf : Soap.decodeFault (Utf8.encode body) with
        | error e => exact .faultless hp hn hs hf
        | ok f => exact .rejected hp hn hs hf

theorem Invoked.post_eq {result : Except ActionError Action} (h : Invoked network a result) :
    a.post network = result := by
  cases h with
  | unsent h => rw [post, h]; rfl
  | unreached hp h => rw [post_of_request hp, h]; rfl
  | completed hp h hc hn hb =>
    rw [post_of_request hp, h, answered_of_success, hc, copiedByName_iff.1 hb, ← setValues_eq, ← hn]
    rfl
  | mismatched hp h hc hn =>
    rw [post_of_request hp, h, answered_of_success, hc]
    exact if_neg hn
  | unreadable hp h hc =>
    rw [post_of_request hp, h, answered_of_success, hc]
    rfl
  | rejected hp h hs hf =>
    rw [post_of_request hp, h, answered_of_failure hs, hf]
    rfl
  | faultless hp h hs hf =>
    rw [post_of_request hp, h, answered_of_failure hs, hf]
    rfl

theorem request_eq_error {e : ActionError} (h : a.request = .error e) :
    e = .noParentService a.name ∨ ∃ x, e = .description x := by
  unfold request at h
  split at h
  · cases h
    exact .inl rfl
  · split at h
    · cases h
      exact .inr ⟨_, rfl⟩
    · cases h

/-- Errors of the network and of messages, and faults, tell that there was a request. -/
theorem request_ne_error {e : ActionError} (h : a.request = .error e) :
    e.fault? = none ∧ (∀ x, e ≠ .http x) ∧ ∀ x, e ≠ .soap x := by
  rcases request_eq_error h with rfl | ⟨x, rfl⟩ <;>
    exact ⟨rfl, fun _ he => (nomatch he), fun _ he => (nomatch he)⟩

theorem post_eq_ok_iff {b : Action} : a.post network = .ok b ↔
    ∃ p body call, a.request = .ok p ∧ network p = .ok (200, body) ∧
      Soap.decodeResponse (Utf8.encode body) = .ok call ∧ call.name = a.name ∧ CopiedByName call.arguments a b := by
  constructor
  · intro h
    cases h ▸ invoked_post network a with
    | completed hp h hc hn hb => exact ⟨_, _, _, hp, h, hc, hn, hb⟩
  · rintro ⟨p, body, call, hp, h, hc, hn, hb⟩
    exact (Invoked.completed hp h hc hn hb).post_eq

theorem post_eq_rejected_iff {f : Soap.Fault} : a.post network = .error (.rejected f) ↔
    ∃ p status body, a.request = .ok p ∧ network p = .ok (status, body) ∧ status ≠ 200 ∧
      Soap.decodeFault (Utf8.encode body) = .ok f := by
  constructor
  · intro h
    cases h ▸ invoked_post network a with
    | unsent h => cases (request_ne_error h).1
    | rejected hp h hs hf => exact ⟨_, _, _, hp, h, hs, hf⟩
  · rintro ⟨p, status, body, hp, h, hs, hf⟩
    exact (Invoked.rejected hp h hs hf).post_eq

theorem post_eq_http_iff {x : Http.Error} : a.post network = .error (.http x) ↔
    ∃ p, a.request = .ok p ∧ network p = .error x := by
  constructor
  · intro h
    cases h ▸ invoked_post network a with
    | unsent h => exact absurd rfl ((request_ne_error h).2.1 x)
    | unreached hp h => exact ⟨_, hp, h⟩
  · rintro ⟨p, hp, h⟩
    exact (Invoked.unreached hp h).post_eq

theorem post_eq_soap_iff {x : Soap.Error} : a.post network = .error (.soap x) ↔
    ∃ p status body, a.request = .ok p ∧ network p = .ok (status, body) ∧
      (status = 200 ∧ Soap.decodeResponse (Utf8.encode body) = .error x ∨
        status ≠ 200 ∧ Soap.decodeFault (Utf8.encode body) = .error x) := by
  constructor
  · intro h
    cases h ▸ invoked_post network a with
    | unsent h => exact absurd rfl ((request_ne_error h).2.2 x)
    | unreadable hp h hc => exact ⟨_, _, _, hp, h, .inl ⟨rfl, hc⟩⟩
    | faultless hp h hs hf => exact ⟨_, _, _, hp, h, .inr ⟨hs, hf⟩⟩
  · rintro ⟨p, status, body, hp, h, ⟨rfl, hc⟩ | ⟨hs, hf⟩⟩
    · exact (Invoked.unreadable hp h hc).post_eq
    · exact (Invoked.faultless hp h hs hf).post_eq

/-- Whatever comes of a control request, the action changes only if the answer has status 200 and is read as a
response of this action, whose values it then takes; in all other cases it stays what it was. It counts as
rejected just if the answer has another status and is read as a fault, which is the one reported. A device that
cannot be reached and a message that cannot be read are errors of their own. -/
theorem post_outcomes (network : Http.Post → Http.Posted) (a : Action) :
    (InPlace.post network).Performs a (a.post network) ∧
    (∀ b, a.post network = .ok b ↔ ∃ p body call, a.request = .ok p ∧ network p = .ok (200, body) ∧
      Soap.decodeResponse (Utf8.encode body) = .ok call ∧ call.name = a.name ∧ CopiedByName call.arguments a b) ∧
    (∀ e, a.post network = .error e → (e.isRejected = true ↔ ∃ f, e.fault? = some f) ∧
      ∀ f, e.fault? = some f ↔ ∃ p status body, a.request = .ok p ∧ network p = .ok (status, body) ∧
        status ≠ 200 ∧ Soap.decodeFault (Utf8.encode body) = .ok f) ∧
    (∀ x, a.post network = .error (.http x) ↔ ∃ p, a.request = .ok p ∧ network p = .error x) ∧
    ∀ x, a.post network = .error (.soap x) ↔ ∃ p status body, a.request = .ok p ∧
      network p = .ok (status, body) ∧ (status = 200 ∧ Soap.decodeResponse (Utf8.encode body) = .error x ∨
        status ≠ 200 ∧ Soap.decodeFault (Utf8.encode body) = .error x) := by
  refine ⟨InPlace.performs_post network a, fun b => post_eq_ok_iff, fun e he => ⟨ActionError.isRejected_iff, ?_⟩,
    fun x => post_eq_http_iff, fun x => post_eq_soap_iff⟩
  intro f
  rw [ActionError.fault?_eq_some, ← post_eq_rejected_iff, he, Except.error.injEq]

/-- The action of a dimmer that is reached at its own address. -/
def dimmer : Action where
  name := "Set"
  arguments := [{ name := "Level", direction := .input, value := "7" }, { name := "Was", direction := .output }]
  service := some {
    serviceType := "urn:x:dimmer:1", serviceId := "dimmer", scpdUrl := "", controlUrl := "/control", eventSubUrl := ""
    device := some {
      deviceType := "lamp", udn := "uuid:1", parentUdn := none, urlBase := "http://lamp/", locationUrl := "" } }

/-- The dimmer answers; it reports a fault, once as it should and once as a success; it is not there. -/
theorem post_outcomes_dimmer :
    let values := [("Colour", "red"), ("Was", "3")]
    let response := Soap.encodeResponse "urn:x:dimmer:1" "Set" values
    let fault := Soap.encodeFault ⟨402, "Invalid Args"⟩
    (∀ b, CopiedByName values dimmer b → dimmer.post (fun _ => .ok (200, response)) = .ok b) ∧
    (∃ e, dimmer.post (fun _ => .ok (500, fault)) = .error e ∧ e.isRejected = true ∧
      e.fault? = some ⟨402, "Invalid Args"⟩ ∧ (InPlace.post fun _ => .ok (500, fault)).on dimmer = (.error e, dimmer)) ∧
    (∀ e, dimmer.post (fun _ => .ok (200, fault)) = .error e → e.isRejected = false) ∧
    dimmer.post (fun _ => .error .transport) = .error (.http .transport) := by
  intro values response fault
  obtain ⟨p, hp⟩ : ∃ p, dimmer.request = .ok p := ⟨_, rfl⟩
  obtain ⟨-, hanswered, -⟩ := post_outcomes (fun _ => .ok (200, response)) dimmer
  obtain ⟨hplace, hfailed, hreported, -⟩ := post_outcomes (fun _ => .ok (500, fault)) dimmer
  obtain ⟨-, -, hsuccess, -⟩ := post_outcomes (fun _ => .ok (200, fault)) dimmer
  obtain ⟨-, -, -, hsilent, -⟩ := post_outcomes (fun _ => .error .transport) dimmer
  refine ⟨fun b hb => (hanswered b).2 ?_, ?_, fun e he => ?_, (hsilent _).2 ⟨p, hp, rfl⟩⟩
  · exact ⟨p, response, _, hp, rfl, Soap.decodeResponse_encodeResponse (by decide) _ (by decide), rfl, hb⟩
  · cases h : dimmer.post fun _ => .ok (500, fault) with
    | ok b =>
      obtain ⟨_, _, _, -, hstatus, -⟩ := (hfailed b).1 h
      cases hstatus
    | error e =>
      unfold InPlace.Performs at hplace
      rw [h] at hplace
      obtain ⟨hrejected, hfault⟩ := hreported e h
      have he := (hfault _).2 ⟨p, 500, fault, hp, rfl, by decide, Soap.decodeFault_encodeFault (by decide)⟩
      exact ⟨e, rfl, hrejected.2 ⟨_, he⟩, he, hplace⟩
  · obtain ⟨hrejected, hfault⟩ := hsuccess e he
    rw [← Bool.not_eq_true, hrejected]
    rintro ⟨f, hf⟩
    obtain ⟨_, _, _, -, hstatus, hne, -⟩ := (hfault f).1 hf
    cases hstatus
    exact hne rfl

end Action

end Upnp
