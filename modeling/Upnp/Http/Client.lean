import Upnp.Text.Utf8
import Upnp.Decimal.Integer

/-
What a client of web servers sends and gets. Documents are fetched, where every status but 200 is
an error; control messages are posted, where the status is part of the answer.
-/

namespace Upnp.Http

/-- The media type of XML documents. -/
def xmlType : String := "text/xml; charset=\"utf-8\""

/-- The header that names the action of a control request. -/
def actionHeader : String := "SOAPACTION"

/-- The answer of a server. -/
structure Reply where
  status : Nat
  body : Text.Utf8.Octets
  deriving Repr, DecidableEq

/-- Why a document was not fetched. -/
inductive Error where
  /-- No server answered. -/
  | transport
  | badStatus (url : String) (status : Nat)
  deriving Repr, DecidableEq

def Error.message : Error → String
  | .transport => "HTTP request failed"
  | .badStatus url status => url ++ " is bad response (" ++ Decimal.showInt status ++ ")"

/-- The text of a body; a question mark stands for what is not UTF-8. -/
def Reply.text (r : Reply) : String :=
  String.ofList (Text.Utf8.decodeMarking '?' r.body)

/-- What came of asking for a document: its text or an error. -/
abbrev Fetched := Except Error String

/-- What came of asking for a document, from the answer to the request, if there was one. -/
def fetched (url : String) : Option Reply → Fetched
  | none => .error .transport
  | some r => if r.status = 200 then .ok r.text else .error (.badStatus url r.status)

/-- What a network answers when asked for documents. -/
abbrev Network := String → Fetched

/-- A control request as it is posted. -/
structure Post where
  url : String
  action : String
  body : String
  deriving Repr, DecidableEq

/-- The action header of a control request. -/
def Post.actionValue (p : Post) : String :=
  "\"" ++ p.action ++ "\""

/-- What came of a control request: status and text, or an error. -/
abbrev Posted := Except Error (Nat × String)

/-- What came of a control request, from the answer to it, if there was one. -/
def posted : Option Reply → Posted
  | none => .error .transport
  | some r => .ok (r.status, r.text)

end Upnp.Http
