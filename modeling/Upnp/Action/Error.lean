import Upnp.Action.Argument
import Upnp.Device.Link
import Upnp.Soap.Decode

/-
What can go wrong when the arguments of an action are used or the action is invoked.
-/

namespace Upnp

inductive ActionError where
  /-- The device has reported an error. -/
  | rejected (f : Soap.Fault)
  | http (e : Http.Error)
  | soap (e : Soap.Error)
  | description (e : DescriptionError)
  | noParentService (action : String)
  | argumentNotFound (name : String)
  | nameMismatch (expected found : String)
  | invalidValue (name : String) (e : ValueError)
  deriving Repr, DecidableEq

namespace ActionError

def message : ActionError → String
  | .rejected f => f.message
  | .http e => "HTTP error: " ++ e.message
  | .soap e => "SOAP error: " ++ e.message
  | .description e => e.message
  | .noParentService action => "action (" ++ action ++ ") has no parent service"
  | .argumentNotFound name => "argument (" ++ name ++ ") is not found"
  | .nameMismatch expected found =>
    "action name of action response (" ++ found ++ ") is not equal this action name (" ++
      expected ++ ")"
  | .invalidValue name e => "argument (" ++ name ++ "): " ++ e.message

/-- The error that the device has reported, if it has. -/
def fault? : ActionError → Option Soap.Fault
  | .rejected f => some f
  | _ => none

/-- Whether the device has answered, with an error. -/
def isRejected : ActionError → Bool
  | .rejected _ => true
  | _ => false

end ActionError

end Upnp
