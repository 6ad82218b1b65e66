import Upnp.Action.Error

/-
Actions: a name, arguments in order, and the service that the action belongs to. Of several
arguments of one name the first is meant.
-/

namespace Upnp

open Upnp.Xml Upnp.Decimal

structure Action where
  name : String
  arguments : List Argument := []
  service : Option ServiceLink := none
  deriving Repr, DecidableEq

namespace Action

/-- The argument as one of this action. -/
def own (a : Action) (x : Argument) : Argument :=
  { x with action := some a.name }

def addArgument (a : Action) (x : Argument) : Action :=
  { a with arguments := a.arguments ++ [a.own x] }

/-- Makes the action one of a service. -/
def attach (service : ServiceLink) (a : Action) : Action :=
  { a with service := some service, arguments := a.arguments.map a.own }

/-! ## Arguments -/

def argumentsIn (a : Action) (d : Direction) : List Argument :=
  a.arguments.filter (·.direction == d)

/-- Names and values of the arguments of a direction. -/
def valuesIn (a : Action) (d : Direction) : List (String × String) :=
  (a.argumentsIn d).map fun x => (x.name, x.value)

/-- Names and values of all arguments. -/
def values (a : Action) : List (String × String) :=
  a.arguments.map fun x => (x.name, x.value)

def argument (a : Action) (name : String) : Except ActionError Argument :=
  match a.arguments.find? (·.name == name) with
  | some x => .ok x
  | none => .error (.argumentNotFound name)

/-- Changes the first argument of a name in a list. -/
def modifyFirst (name : String) (f : Argument → Argument) : List Argument → List Argument
  | [] => []
  | x :: xs => if x.name = name then f x :: xs else x :: modifyFirst name f xs

/-- Changes the first argument of a name, if there is one. -/
def modifyArgument (a : Action) (name : String) (f : Argument → Argument) : Action :=
  { a with arguments := modifyFirst name f a.arguments }

/-- Changes an argument that has to be there. -/
def updateArgument (a : Action) (name : String) (f : Argument → Argument) :
    Except ActionError Action :=
  (a.argument name).map fun _ => a.modifyArgument name f

def setString (a : Action) (name value : String) : Except ActionError Action :=
  a.updateArgument name (·.setValue value)

def setInt (a : Action) (name : String) (n : Int) : Except ActionError Action :=
  a.updateArgument name (·.setInt n)

def setReal (a : Action) (name : String) (x : Binary64) : Except ActionError Action :=
  a.updateArgument name (·.setReal x)

def setTruth (a : Action) (name : String) (b : Bool) : Except ActionError Action :=
  a.updateArgument name (·.setTruth b)

/-- What a reader makes of the value of an argument. -/
def readArgument {α : Type} (a : Action) (name : String) (read : Argument → Except ValueError α) :
    Except ActionError α :=
  (a.argument name).bind fun x => (read x).mapError (.invalidValue name)

def getString (a : Action) (name : String) : Except ActionError String :=
  (a.argument name).map Argument.value

def getInt (a : Action) (name : String) : Except ActionError Int :=
  a.readArgument name Argument.int

def getReal (a : Action) (name : String) : Except ActionError Binary64 :=
  a.readArgument name Argument.real

def getTruth (a : Action) (name : String) : Except ActionError Bool :=
  a.readArgument name Argument.truth

/-- Sets the arguments that a message about an action gives values for; the message has to name
this action, while names that no argument has are passed over. -/
def setValues (a : Action) (name : String) (values : List (String × String)) :
    Except ActionError Action :=
  if name = a.name then
    .ok (values.foldl (fun a (n, v) => a.modifyArgument n (·.setValue v)) a)
  else .error (.nameMismatch a.name name)

/-! ## Description -/

def ofElement (e : Element) : Action :=
  ((e.listed "argumentList" "argument").map Argument.ofElement).foldl addArgument
    { name := e.childText "name" }

def toElement (a : Action) : Element :=
  .ofElements "action"
    (.ofText "name" a.name :: Element.listOf "argumentList" (a.arguments.map Argument.toElement))

end Action

end Upnp
