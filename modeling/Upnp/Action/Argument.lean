import Upnp.Decimal.Real
import Upnp.Xml.Node

/-
The arguments of actions. Values are kept as texts; integers, reals and truth values are written
to them and read from them.
-/

namespace Upnp

open Upnp.Decimal Upnp.Xml

/-- Whether an argument goes to the device or comes from it. -/
inductive Direction where
  | unknown
  | input
  | output
  deriving Repr, DecidableEq

namespace Direction

def text : Direction → String
  | .unknown => ""
  | .input => "in"
  | .output => "out"

def ofText (s : String) : Direction :=
  match Text.trim s with
  | "in" => .input
  | "out" => .output
  | _ => .unknown

def number : Direction → Nat
  | .unknown => 0
  | .input => 1
  | .output => 2

end Direction

/-- Why the value of an argument is not of the kind asked for. -/
inductive ValueError where
  | integer (e : IntegerError)
  | real (e : RealError)
  | truth (value : String)
  deriving Repr, DecidableEq

def ValueError.message : ValueError → String
  | .integer e => "invalid integer value: " ++ e.message
  | .real e => "invalid float value: " ++ e.message
  | .truth value => "invalid boolean value '" ++ value ++ "'"

def trueTexts : List String := ["1", "t", "T", "TRUE", "true", "True"]

def falseTexts : List String := ["0", "f", "F", "FALSE", "false", "False"]

/-- Reads a truth value in one of its written forms. -/
def readTruth (value : String) : Except ValueError Bool :=
  if trueTexts.contains value then .ok true
  else if falseTexts.contains value then .ok false
  else .error (.truth value)

/-- An argument, which names the variable that gives its type and the action it belongs to. -/
structure Argument where
  name : String
  direction : Direction := .unknown
  relatedVariable : String := ""
  value : String := ""
  action : Option String := none
  deriving Repr, DecidableEq

namespace Argument

def isInput (a : Argument) : Bool :=
  a.direction == .input

def isOutput (a : Argument) : Bool :=
  a.direction == .output

def setValue (a : Argument) (value : String) : Argument :=
  { a with value }

def setInt (a : Argument) (n : Int) : Argument :=
  a.setValue (showInt n)

def setReal (a : Argument) (x : Binary64) : Argument :=
  a.setValue (RealFormat.plain.write x)

def setTruth (a : Argument) (b : Bool) : Argument :=
  a.setInt (if b then 1 else 0)

/-- The value as a 64-bit integer. -/
def int (a : Argument) : Except ValueError Int :=
  (readInt .signed64 a.value).mapError .integer

def real (a : Argument) : Except ValueError Binary64 :=
  (readReal a.value).mapError .real

def truth (a : Argument) : Except ValueError Bool :=
  readTruth a.value

def ofElement (e : Element) : Argument :=
  { name := e.childText "name"
    direction := .ofText (e.childText "direction")
    relatedVariable := e.childText "relatedStateVariable" }

def toElement (a : Argument) : Element :=
  .ofElements "argument" [
    .ofText "name" a.name,
    .ofText "direction" a.direction.text,
    .ofText "relatedStateVariable" a.relatedVariable]

end Argument

end Upnp
