import Upnp.Action.Basic
import Upnp.Soap.Encode

/-
Invoking actions. The client builds a control request from the input arguments and takes the
values of the answer; the device takes the values of the request and answers with the output
arguments.
-/

namespace Upnp.Action

/-! ## The client's side -/

/-- The control request that invokes the action. -/
def request (a : Action) : Except ActionError Http.Post :=
  match a.service with
  | none => .error (.noParentService a.name)
  | some s =>
    match s.absoluteControlUrl with
    | .error e => .error (.description e)
    | .ok url =>
      .ok {
        url := url.text
        action := s.serviceType ++ "#" ++ a.name
        body := Soap.encodeRequest s.serviceType a.name (a.valuesIn .input) }

/-- The action after an answer to its request. -/
def complete (a : Action) : Http.Posted → Except ActionError Action
  | .error e => .error (.http e)
  | .ok (status, body) =>
    let message := Text.Utf8.encode body
    if status = 200 then
      match Soap.decodeResponse message with
      | .ok call => a.setValues call.name call.arguments
      | .error e => .error (.soap e)
    else
      match Soap.decodeFault message with
      | .ok f => .error (.rejected f)
      | .error e => .error (.soap e)

/-- Invokes the action over a network. -/
def post (network : Http.Post → Http.Posted) (a : Action) : Except ActionError Action :=
  a.request.bind fun p => a.complete (network p)

/-! ## The device's side -/

/-- Takes the arguments of a request. -/
def applyRequest (a : Action) (call : Soap.Call) : Except ActionError Action :=
  a.setValues call.name call.arguments

/-- The answer to a request. -/
def response (a : Action) : Except ActionError String :=
  match a.service with
  | none => .error (.noParentService a.name)
  | some s => .ok (Soap.encodeResponse s.serviceType a.name (a.valuesIn .output))

end Upnp.Action
