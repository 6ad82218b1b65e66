import Upnp.Text.Blank
import Upnp.Text.Utf8
import Upnp.Markup.Attribute
import Upnp.Soap.Fault

/-
Reading SOAP envelopes. The body is found first and taken verbatim; it is then read as the call of
an action, whose children are the arguments, or as a fault. Names count without their prefixes,
and what stands around the elements of interest is passed over.
-/

namespace Upnp.Soap

open Upnp.Text Upnp.Markup Upnp.Decimal

/-- An action and its arguments as a message names them. -/
structure Call where
  name : String
  serviceType : Option String
  arguments : List (String × String)
  deriving Repr, DecidableEq

/-- Why a message cannot be read. -/
inductive Error where
  | malformed
  | notUtf8 (e : Utf8.Error)
  | missingEnvelope
  | missingBody
  | noAction
  | notAFault
  | invalidErrorCode (text : String)
  deriving Repr, DecidableEq

def Error.message : Error → String
  | .malformed => "XML parse error"
  | .notUtf8 e => "SOAP message is not valid UTF-8: " ++ e.message
  | .missingEnvelope => "Missing SOAP Envelope"
  | .missingBody => "Missing SOAP Body"
  | .noAction => "No action found in SOAP Body"
  | .notAFault => "SOAP Body is not a Fault"
  | .invalidErrorCode text => "invalid UPnP error code '" ++ text ++ "'"

/-! ## The body -/

/-- The content of the first body behind the start of an envelope. -/
def findBody : (inEnvelope : Bool) → List Lexeme → Except Error (List Char)
  | inEnvelope, [] => .error (if inEnvelope then .missingBody else .missingEnvelope)
  | inEnvelope, x :: xs =>
    match x.token with
    | .malformed => .error .malformed
    | .opening name _ =>
      if localName name = "Envelope".toList then findBody true xs
      else if localName name = "Body".toList ∧ inEnvelope then
        match innerSource? name 0 xs with
        | some inner => .ok inner
        | none => .error .malformed
      else findBody inEnvelope xs
    | .empty name _ =>
      if localName name = "Envelope".toList then .error .missingBody
      else if localName name = "Body".toList ∧ inEnvelope then .ok []
      else findBody inEnvelope xs
    | _ => findBody inEnvelope xs

def bodyOfChars (cs : List Char) : Except Error (List Char) :=
  findBody false (lexemes cs)

/-- The markup between the tags of a message's body, character for character. -/
def body (message : Utf8.Octets) : Except Error (List Char) :=
  match Utf8.decodeChars message with
  | .error e => .error (.notUtf8 e)
  | .ok cs => bodyOfChars cs

/-! ## Calls -/

def text (cs : List Char) : String :=
  String.ofList cs

/-- What a reference in a value stands for; one by an unknown name stands for itself. -/
def resolve (name : List Char) : Except Error (List Char) :=
  match name with
  | '#' :: number =>
    match Xml.charOfNumber? number with
    | some c => .ok [c]
    | none => .error .malformed
  | name =>
    match Xml.predefined? name with
    | some c => .ok [c]
    | none => .ok ('&' :: name ++ [';'])

/-- An argument whose value is under way. -/
structure OpenArgument where
  name : List Char
  value : List Char

/-- Where the reader of a call stands: how deep, in which call and in which argument. -/
structure CallState where
  depth : Nat := 0
  call : Option Call := none
  argument : Option OpenArgument := none

namespace CallState

/-- The call with another argument behind the others. -/
def addArgument (s : CallState) (name value : List Char) : CallState :=
  { s with call := s.call.map fun c =>
      { c with arguments := c.arguments ++ [(text name, text value)] } }

/-- Adds text to the argument, if it stands directly in it. -/
def addText (s : CallState) (cs : List Char) : CallState :=
  if s.depth = 2 then
    { s with argument := s.argument.map fun a => { a with value := a.value ++ cs } }
  else s

/-- Leaves an element; an argument ends with its own element. -/
def close (s : CallState) : CallState :=
  let ended :=
    if s.depth = 2 then
      match s.argument with
      | some a => { s.addArgument a.name a.value with argument := none }
      | none => s
    else s
  { ended with depth := s.depth - 1 }

def result (s : CallState) : Except Error Call :=
  match s.call with
  | some c => .ok c
  | none => .error .noAction

end CallState

/-- A call without arguments from the tag of its element. -/
def callOfTag (name attributes : List Char) : Except Error Call :=
  match namespaceOf attributes with
  | .ok type => .ok ⟨text (localName name), type, []⟩
  | .error _ => .error .malformed

/-- Reads the first element as a call, up to its end. -/
def readCallFrom : CallState → List Token → Except Error Call
  | s, [] => s.result
  | s, t :: ts =>
    match t with
    | .malformed => .error .malformed
    | .opening name attributes =>
      match s.depth with
      | 0 =>
        match callOfTag name attributes with
        | .ok c => readCallFrom { depth := 1, call := some c } ts
        | .error e => .error e
      | 1 => readCallFrom { s with depth := 2, argument := some ⟨localName name, []⟩ } ts
      | d => readCallFrom { s with depth := d + 1 } ts
    | .empty name attributes =>
      match s.depth with
      | 0 => callOfTag name attributes
      | 1 => readCallFrom (s.addArgument (localName name) []) ts
      | _ => readCallFrom s ts
    | .closing _ => if s.depth ≤ 1 then s.result else readCallFrom s.close ts
    | .text cs => readCallFrom (s.addText cs) ts
    | .cdata cs => readCallFrom (s.addText cs) ts
    | .reference name =>
      if s.depth = 2 then
        match resolve name with
        | .ok cs => readCallFrom (s.addText cs) ts
        | .error e => .error e
      else readCallFrom s ts
    | .aside => readCallFrom s ts

def tokensOf (cs : List Char) : List Token :=
  (lexemes cs).map Lexeme.token

/-- Reads the request of an action. -/
def decodeRequest (message : Utf8.Octets) : Except Error Call := do
  readCallFrom {} (tokensOf (← body message))

/-- What the name of an action's response ends in. -/
def responseEnd : String := "Response"

/-- Reads the response of an action, under the action's own name. -/
def decodeResponse (message : Utf8.Octets) : Except Error Call := do
  let call ← decodeRequest message
  .ok { call with name := (stripEnd? responseEnd call.name).getD call.name }

/-! ## Faults -/

/-- What the reader of a fault has met: a fault at all, the element it stands in, code and
description. -/
structure FaultState where
  inFault : Bool := false
  field : Option (List Char) := none
  code : List Char := []
  description : List Char := []

namespace FaultState

def enter (s : FaultState) (name : List Char) : FaultState :=
  { s with inFault := s.inFault || name == "Fault".toList }

def addCode (s : FaultState) (cs : List Char) : FaultState :=
  if s.field = some "errorCode".toList then { s with code := s.code ++ cs } else s

def addDescription (s : FaultState) (cs : List Char) : FaultState :=
  if s.field = some "errorDescription".toList then
    { s with description := s.description ++ cs }
  else s

def addText (s : FaultState) (cs : List Char) : FaultState :=
  (s.addCode cs).addDescription cs

def result (s : FaultState) : Except Error Fault :=
  if !s.inFault then .error .notAFault
  else
    let code := trimChars s.code
    match readIntChars .unsigned32 code with
    | .ok n => .ok ⟨n.toNat, text s.description⟩
    | .error _ => .error (.invalidErrorCode (text code))

end FaultState

/-- Reads a fault from the tokens of a body; references count in the description only. -/
def readFaultFrom : FaultState → List Token → Except Error Fault
  | s, [] => s.result
  | s, t :: ts =>
    match t with
    | .malformed => .error .malformed
    | .opening name _ =>
      readFaultFrom { s.enter (localName name) with field := some (localName name) } ts
    | .empty name _ => readFaultFrom (s.enter (localName name)) ts
    | .closing _ => readFaultFrom { s with field := none } ts
    | .text cs => readFaultFrom (s.addText cs) ts
    | .cdata cs => readFaultFrom (s.addText cs) ts
    | .reference name =>
      if s.field = some "errorDescription".toList then
        match resolve name with
        | .ok cs => readFaultFrom (s.addDescription cs) ts
        | .error e => .error e
      else readFaultFrom s ts
    | .aside => readFaultFrom s ts

/-- Reads the fault that a message carries. -/
def decodeFault (message : Utf8.Octets) : Except Error Fault := do
  readFaultFrom {} (tokensOf (← body message))

end Upnp.Soap
