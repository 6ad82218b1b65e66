import Upnp.Text.Utf8
import Upnp.Xml.Writer
import Upnp.Soap.Decode

/-
Writing SOAP envelopes: requests, responses and faults.
-/

namespace Upnp.Soap

open Upnp.Xml

def envelopeNamespace : String := "http://schemas.xmlsoap.org/soap/envelope/"

def encodingStyle : String := "http://schemas.xmlsoap.org/soap/encoding/"

def controlNamespace : String := "urn:schemas-upnp-org:control-1-0"

/-- The envelope around the content of a body. -/
def envelope (content : Element) : Element :=
  { name := "s:Envelope"
    attributes := [("s:encodingStyle", encodingStyle), ("xmlns:s", envelopeNamespace)]
    children := [(Element.ofElements "s:Body" [content]).toNode] }

/-- The element of an action with its arguments in order. -/
def actionElement (serviceType name : String) (arguments : List (String × String)) : Element :=
  { name := "u:" ++ name
    attributes := [("xmlns:u", serviceType)]
    children := arguments.map fun (n, v) => (Element.ofText n v).toNode }

/-- The request of an action. -/
def encodeRequest (serviceType name : String) (arguments : List (String × String)) : String :=
  write (envelope (actionElement serviceType name arguments))

/-- The response of an action. -/
def encodeResponse (serviceType name : String) (arguments : List (String × String)) : String :=
  encodeRequest serviceType (name ++ responseEnd) arguments

/-- The element of a fault. -/
def faultElement (f : Fault) : Element :=
  let detail : Element :=
    { name := "UPnPError"
      attributes := [("xmlns", controlNamespace)]
      children := [(Element.ofText "errorCode" (Decimal.showInt f.code)).toNode,
        (Element.ofText "errorDescription" f.description).toNode] }
  Element.ofElements "s:Fault" [
    Element.ofText "faultcode" "s:Client",
    Element.ofText "faultstring" "UPnPError",
    Element.ofElements "detail" [detail]]

/-- The message that reports a fault. -/
def encodeFault (f : Fault) : String :=
  write (envelope (faultElement f))

end Upnp.Soap
