import Upnp.Decimal.Integer

/-
The errors that a device reports to a control request: a code and a description, with the
descriptions that the architecture fixes for its own codes.
-/

namespace Upnp.Soap

/-- An error that a device reports. -/
structure Fault where
  code : Nat
  description : String
  deriving Repr, DecidableEq

namespace Fault

/-- The descriptions of the standard codes, empty for all others. -/
def standardText : Nat → String
  | 401 => "Invalid Action"
  | 402 => "Invalid Args"
  | 501 => "Action Failed"
  | 600 => "Argument Value Invalid"
  | 601 => "Argument Value Out of Range"
  | 602 => "Optional Action Not Implemented"
  | 603 => "Out of Memory"
  | 604 => "Human Intervention Required"
  | 605 => "String Argument Too Long"
  | _ => ""

/-- The fault of a code with its standard description. -/
def standard (code : Nat) : Fault :=
  ⟨code, standardText code⟩

def invalidAction : Fault := standard 401
def invalidArgs : Fault := standard 402
def actionFailed : Fault := standard 501
def invalidValue : Fault := standard 600
def notImplemented : Fault := standard 602

def message (f : Fault) : String :=
  "UPnP Error : [" ++ Decimal.showInt f.code ++ "] " ++ f.description

end Fault

end Upnp.Soap
