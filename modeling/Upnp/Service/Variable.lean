import Upnp.Text.Split
import Upnp.Xml.Node

/-
State variables, as the description of a service declares them. Nothing in them is interpreted:
types, values and ranges are kept as they are written.
-/

namespace Upnp

open Upnp.Xml

/-- The range of the values of a variable. -/
structure ValueRange where
  minimum : String
  maximum : String
  step : String := ""
  deriving Repr, DecidableEq

namespace ValueRange

def isEmpty (r : ValueRange) : Bool :=
  r.minimum == "" && r.maximum == "" && r.step == ""

def ofElement (e : Element) : ValueRange :=
  ⟨e.childText "minimum", e.childText "maximum", e.childText "step"⟩

def toElement (r : ValueRange) : Element :=
  .ofElements "allowedValueRange"
    ([.ofText "minimum" r.minimum, .ofText "maximum" r.maximum] ++
      Element.optionalText "step" r.step)

end ValueRange

structure StateVariable where
  name : String
  dataType : String
  defaultValue : String := ""
  allowedValues : List String := []
  range : Option ValueRange := none
  sendEvents : String := ""
  multicast : String := ""
  deriving Repr, DecidableEq

namespace StateVariable

/-- Declares whether changes of the variable are reported. -/
def withEvents (v : StateVariable) (b : Bool) : StateVariable :=
  { v with sendEvents := if b then "yes" else "no" }

/-- Whether changes of the variable are reported. -/
def sendsEvents (v : StateVariable) : Bool :=
  Text.eqIgnoringAsciiCase v.sendEvents "yes"

def ofElement (e : Element) : StateVariable :=
  { name := e.childText "name"
    dataType := e.childText "dataType"
    defaultValue := e.childText "defaultValue"
    allowedValues := ((e.listed "allowedValueList" "allowedValue").filterMap Element.text?).map
      Text.trim
    range := (e.child? "allowedValueRange").map ValueRange.ofElement
    sendEvents := (e.attribute? "sendEvents").getD ""
    multicast := (e.attribute? "multicast").getD "" }

/-- An attribute, unless its value is empty. -/
def optionalAttribute (name value : String) : List (String × String) :=
  if value = "" then [] else [(name, value)]

def toElement (v : StateVariable) : Element :=
  let range := match v.range with
    | some r => if r.isEmpty then [] else [r.toElement]
    | none => []
  let e := Element.ofElements "stateVariable" (
    [.ofText "name" v.name, .ofText "dataType" v.dataType] ++
    Element.optionalText "defaultValue" v.defaultValue ++
    Element.listOf "allowedValueList" (v.allowedValues.map (Element.ofText "allowedValue")) ++
    range)
  { e with attributes :=
      optionalAttribute "multicast" v.multicast ++ optionalAttribute "sendEvents" v.sendEvents }

end StateVariable

end Upnp
