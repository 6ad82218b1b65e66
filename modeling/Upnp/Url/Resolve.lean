import Upnp.Url.Parse

/-
Absolute web URLs from a base and a path. A path that is a URL by itself is taken as it is; any
other is put behind the base with one slash between them.
-/

namespace Upnp.Url

open Upnp.Text

/-- Why no absolute web URL results. -/
inductive Error where
  | notAbsolute (text : String)
  | unknownScheme (scheme : String)
  deriving Repr, DecidableEq

def Error.message : Error → String
  | .notAbsolute text => "url (" ++ text ++ ") is not absolute"
  | .unknownScheme scheme => "url scheme (" ++ scheme ++ ") is unknown"

def trimSlashes (s : String) : String :=
  trimMatches '/' s

/-- A base and a path with exactly one slash between them, and none at the end. -/
def join (base path : String) : String :=
  String.ofList (dropTrailing (· == '/') base.toList) ++ "/" ++ trimSlashes path

/-- Accepts the URLs of web pages. -/
def requireHttp (u : Url) : Except Error Url :=
  if u.scheme = "http" ∨ u.scheme = "https" then .ok u else .error (.unknownScheme u.scheme)

/-- The absolute URL of a path seen from a base. -/
def absolute (base path : String) (toAscii : DomainRule := asciiDomain?) : Except Error Url :=
  match parse? path toAscii with
  | some u => requireHttp u
  | none =>
    match parse? (join base path) toAscii with
    | some u => requireHttp u
    | none => .error (.notAbsolute (join base path))

/-- The origin of a URL text: scheme, host and port. -/
def origin (text : String) (toAscii : DomainRule := asciiDomain?) : Except Error String :=
  match (parse? text toAscii).bind origin? with
  | some o => .ok o
  | none => .error (.notAbsolute text)

end Upnp.Url
