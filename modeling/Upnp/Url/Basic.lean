import Upnp.Url.Host

/-
URLs, their parts and their text.
-/

namespace Upnp

open Upnp.Text

namespace Url

/-- A path is a list of segments behind slashes, or, in a URL without authority, a plain text. -/
inductive Path where
  | segments (names : List String)
  | rootless (text : String)
  deriving Repr, DecidableEq

def Path.text : Path → String
  | .segments names => String.join (names.map ("/" ++ ·))
  | .rootless text => text

/-- User name and password, percent encoded. -/
structure Credentials where
  user : String
  password : String
  deriving Repr, DecidableEq

/-- What stands behind the two slashes; an empty host is none. -/
structure Authority where
  credentials : Option Credentials := none
  host : Option Host := none
  port : Option Nat := none
  deriving Repr, DecidableEq

end Url

/-- A URL in its normal form: scheme and domain in lower case, parts percent encoded, dot segments
resolved, no port where it is the scheme's own. -/
structure Url where
  scheme : String
  authority : Option Url.Authority
  path : Url.Path
  query : Option String := none
  fragment : Option String := none
  deriving Repr, DecidableEq

namespace Url

def Credentials.text (c : Credentials) : String :=
  c.user ++ (if c.password = "" then "" else ":" ++ c.password) ++ "@"

def portText (port : Option Nat) : String :=
  match port with
  | some p => ":" ++ toString p
  | none => ""

def hostText (host : Option Host) : String :=
  (host.map Host.text).getD ""

def Authority.text (a : Authority) : String :=
  "//" ++ (a.credentials.map Credentials.text).getD "" ++ hostText a.host ++ portText a.port

/-- An optional part behind its mark. -/
def markedText (mark : String) (part : Option String) : String :=
  match part with
  | some s => mark ++ s
  | none => ""

/-- The path with the query: what an HTTP request names. -/
def target (u : Url) : String :=
  u.path.text ++ markedText "?" u.query

/-- The text of a URL. -/
def text (u : Url) : String :=
  u.scheme ++ ":" ++ (u.authority.map Authority.text).getD "" ++ u.target ++
    markedText "#" u.fragment

def host? (u : Url) : Option Host :=
  u.authority.bind Authority.host

def port? (u : Url) : Option Nat :=
  u.authority.bind Authority.port

/-! ## Schemes -/

/-- The schemes of the web, and the port that each implies. -/
def defaultPort? : String → Option Nat
  | "http" => some 80
  | "https" => some 443
  | "ws" => some 80
  | "wss" => some 443
  | "ftp" => some 21
  | _ => none

def isWebScheme (scheme : String) : Bool :=
  (defaultPort? scheme).isSome

/-- Scheme, host and port as a text, of a URL that has a host. -/
def origin? (u : Url) : Option String :=
  u.host?.map fun h => u.scheme ++ "://" ++ h.text ++ portText u.port?

end Url

end Upnp
