import Upnp.Text.Blank
import Upnp.Text.Split
import Upnp.Text.Utf8
import Upnp.Net.Interface
import Upnp.Ssdp.MaxAge

/-
SSDP packets: a first line of tokens and a bag of headers, kept in the order in which their names
were first written, names in upper case and each only once. `Packet.parse` reads a datagram and
`Packet.toText` writes one; the headers end at the first blank line, or at the end of the datagram.
-/

namespace Upnp.Ssdp

open Upnp.Text Upnp.Decimal

/-! ## Header names -/

/-- The headers that SSDP gives a meaning. -/
inductive HeaderName where
  | host | man | mx | st | usn | nt | nts | location | server | userAgent | cacheControl | ext
  | date | bootId | sid | seq | callback
  deriving Repr, DecidableEq

def HeaderName.text : HeaderName → String
  | .host => "HOST"
  | .man => "MAN"
  | .mx => "MX"
  | .st => "ST"
  | .usn => "USN"
  | .nt => "NT"
  | .nts => "NTS"
  | .location => "LOCATION"
  | .server => "SERVER"
  | .userAgent => "USER-AGENT"
  | .cacheControl => "CACHE-CONTROL"
  | .ext => "EXT"
  | .date => "DATE"
  | .bootId => "BOOTID.UPNP.ORG"
  | .sid => "SID"
  | .seq => "SEQ"
  | .callback => "CALLBACK"

/-! ## Header bags -/

/-- Headers by name, in the order of their first writing. -/
abbrev Headers := List (String × String)

namespace Headers

/-- The value under a name that is already in upper case. -/
def find? (key : String) (hs : Headers) : Option String :=
  hs.lookup key

/-- Writes a value under a name that is already in upper case, in place if the name is there. -/
def put (key value : String) : Headers → Headers
  | [] => [(key, value)]
  | (k, v) :: hs => if k = key then (k, value) :: hs else (k, v) :: put key value hs

/-- The value under a name, in any letter case. -/
def get? (hs : Headers) (name : String) : Option String :=
  hs.find? (upperAscii name)

/-- Writes a value under a name, in any letter case. -/
def set (hs : Headers) (name value : String) : Headers :=
  hs.put (upperAscii name) value

end Headers

/-! ## Packets -/

/-- A packet; one that was received also knows its sender and the interface it came in on. -/
structure Packet where
  firstLine : List String := []
  headers : Headers := []
  sender : Option Net.Endpoint := none
  interface : Option Net.Interface := none
  deriving Repr, DecidableEq

/-- Why a datagram is no packet. -/
inductive PacketError where
  | empty
  | noFirstLine
  | badHeaderBlock (start stop : Nat)
  deriving Repr, DecidableEq

def PacketError.message : PacketError → String
  | .empty => "packet length is zero"
  | .noFirstLine => "first line is not found"
  | .badHeaderBlock start stop => s!"headers are not found ({start}:{stop})"

namespace Packet

def header? (p : Packet) (name : String) : Option String :=
  p.headers.get? name

def setHeader (p : Packet) (name value : String) : Packet :=
  { p with headers := p.headers.set name value }

/-- The value of a header that SSDP gives a meaning. -/
def get? (p : Packet) (h : HeaderName) : Option String :=
  p.header? h.text

def set (p : Packet) (h : HeaderName) (value : String) : Packet :=
  p.setHeader h.text value

def setInt (p : Packet) (h : HeaderName) (n : Int) : Packet :=
  p.set h (showInt n)

/-- The value of a header as a 64-bit integer. -/
def headerInt? (p : Packet) (name : String) : Option Int := do
  readInt? .signed64 (trim (← p.header? name))

def hasHeader (p : Packet) (name value : String) : Bool :=
  p.header? name == some value

def has (p : Packet) (h : HeaderName) (value : String) : Bool :=
  p.hasHeader h.text value

/-- The first token of the first line. -/
def method? (p : Packet) : Option String :=
  p.firstLine.head?

def hasMethod (p : Packet) (m : String) : Bool :=
  p.method? == some m

def setFirstLine (p : Packet) (tokens : List String) : Packet :=
  { p with firstLine := tokens }

/-- The protocol version in first lines. -/
def httpVersion : String := "HTTP/1.1"

/-- Makes the packet a request with this method. -/
def setMethod (p : Packet) (m : String) : Packet :=
  p.setFirstLine [m, "*", httpVersion]

def maxAge (p : Packet) : Nat :=
  Ssdp.maxAge (p.get? .cacheControl)

/-! ## Reading -/

def lineEnd : List Char := ['\r', '\n']

def lineEndOctets : Utf8.Octets := [13, 10]

def blankLineOctets : Utf8.Octets := [13, 10, 13, 10]

/-- Name and value of a header line: cut at the first colon with a space behind it, else at the
first colon; a line without name is none. -/
def headerOfLine? (line : List Char) : Option (String × String) :=
  match (splitOnce? [':', ' '] line).or (splitOnce? [':'] line) with
  | some (name, value) =>
    if name.isEmpty then none else some (String.ofList name, String.ofList (dropBlanks value))
  | none => none

/-- Adds the headers of a block of lines. -/
def addHeaders (block : List Char) (hs : Headers) : Headers :=
  ((splitAll lineEnd block).filterMap headerOfLine?).foldl (fun hs (k, v) => hs.set k v) hs

/-- The octets of the header block and where it starts and stops. -/
def headerBlock (bs : Utf8.Octets) (firstLineSize : Nat) : Nat × Nat :=
  (firstLineSize + lineEndOctets.length, (indexOf? blankLineOctets bs).getD bs.length)

/-- Reads a datagram. -/
def parse (bs : Utf8.Octets) : Except PacketError Packet :=
  if bs.isEmpty then .error .empty
  else
    match splitOnce? lineEndOctets bs with
    | none => .error .noFirstLine
    | some (first, _) =>
      let (start, stop) := headerBlock bs first.length
      if stop < first.length ∨ start > bs.length then .error (.badHeaderBlock start stop)
      else
        let tokens := splitAll [' '] (Utf8.decodeLossyChars first)
        let block := Utf8.decodeLossyChars ((bs.take stop).drop start)
        .ok {
          firstLine := tokens.map String.ofList
          headers := if stop > start then addHeaders block [] else [] }

/-! ## Writing -/

/-- The text of a packet. -/
def toText (p : Packet) : String :=
  let line := " ".intercalate p.firstLine ++ "\r\n"
  let lines := p.headers.map fun (k, v) => k ++ ": " ++ v ++ "\r\n"
  line ++ String.join lines ++ "\r\n"

def toOctets (p : Packet) : Utf8.Octets :=
  Utf8.encode p.toText

end Packet

end Upnp.Ssdp
