import Upnp.Text.Blank
import Upnp.Url.Basic

/-
Reading absolute URLs by the rules of web browsers. White space around the text and tabs and line
ends inside it are dropped; the text is cut into scheme, authority, path, query and fragment, and
each part is brought to its normal form.
-/

namespace Upnp.Url

open Upnp.Text

/-! ## Cutting -/

def isTrimmedAtEnds (c : Char) : Bool :=
  c.toNat ≤ 0x20

def isDropped (c : Char) : Bool :=
  c == '\t' || c == '\n' || c == '\r'

/-- The text without blanks at its ends, tabs and line ends. -/
def cleaned (cs : List Char) : List Char :=
  (dropTrailing isTrimmedAtEnds (cs.dropWhile isTrimmedAtEnds)).filter (!isDropped ·)

def isSchemeChar (c : Char) : Bool :=
  c.isAlphanum || c == '+' || c == '-' || c == '.'

/-- The scheme and what stands behind its colon. -/
def splitScheme? (cs : List Char) : Option (List Char × List Char) :=
  match cs with
  | [] => none
  | c :: _ =>
    match cs.dropWhile isSchemeChar with
    | ':' :: rest =>
      if c.isAlpha then some ((cs.takeWhile isSchemeChar).map Char.toLower, rest) else none
    | _ => none

/-- The parts before and behind the first of some marks; a mark belongs to the second part. -/
def spanUntil (isMark : Char → Bool) (cs : List Char) : List Char × List Char :=
  (cs.takeWhile (!isMark ·), cs.dropWhile (!isMark ·))

def isSlash (web : Bool) (c : Char) : Bool :=
  c == '/' || (web && c == '\\')

def endsPath (c : Char) : Bool :=
  c == '?' || c == '#'

def endsAuthority (web : Bool) (c : Char) : Bool :=
  isSlash web c || endsPath c

/-! ## Authority -/

/-- The parts before and behind the last at-sign. -/
def splitCredentials (cs : List Char) : Option (List Char) × List Char :=
  match splitOnce? ['@'] cs.reverse with
  | some (host, user) => (some user.reverse, host.reverse)
  | none => (none, cs)

/-- User and password, cut at the first colon; none if both are empty. -/
def readCredentials? (cs : List Char) : Option Credentials :=
  let (user, password) := (splitOnce? [':'] cs).getD (cs, [])
  if user.isEmpty && password.isEmpty then none
  else
    let write (part : List Char) := String.ofList (Percent.encode Percent.inUserinfo part)
    some ⟨write user, write password⟩

/-- The end of a host: the first colon outside square brackets. -/
def spanHost : (inBrackets : Bool) → List Char → List Char × List Char
  | _, [] => ([], [])
  | inBrackets, c :: cs =>
    if c = ':' ∧ !inBrackets then ([], c :: cs)
    else
      let (host, rest) := spanHost (c = '[' || (c ≠ ']' && inBrackets)) cs
      (c :: host, rest)

/-- A port behind its colon, absent if it is empty or the scheme's own; a backslash may end it. -/
def readPort? (scheme : String) (cs : List Char) : Option (Option Nat × List Char) :=
  let (digits, rest) := spanUntil (!Char.isDigit ·) cs
  let n := digits.foldl (fun acc c => acc * 10 + (c.toNat - 48)) 0
  let port := if digits.isEmpty ∨ defaultPort? scheme = some n then none else some n
  if n > 65535 then none
  else
    match rest with
    | [] => some (port, [])
    | '\\' :: _ => some (port, rest)
    | _ => none

def readPortPart? (scheme : String) : List Char → Option (Option Nat × List Char)
  | ':' :: cs => readPort? scheme cs
  | cs => some (none, cs)

/-- The authority between the two slashes and the path, and what of its text belongs to the path. -/
def readAuthority? (scheme : String) (cs rest : List Char) (toAscii : DomainRule := asciiDomain?) :
    Option (Authority × List Char) := do
  let web := isWebScheme scheme
  let (user?, hostPort) := splitCredentials cs
  let credentials := user?.bind readCredentials?
  let (hostChars, portChars) := spanHost false hostPort
  if hostChars.isEmpty then
    if web ∨ credentials.isSome ∨ !portChars.isEmpty ∨ (user?.isSome ∧ !rest.isEmpty) then none
    else some ({}, [])
  else
    let host ← if web then readWebHost? hostChars toAscii else readOtherHost? hostChars
    let (port, left) ← readPortPart? scheme portChars
    some (⟨credentials, some host, port⟩, left)

/-! ## Path, query and fragment -/

/-- The spellings of the segment for the same folder. -/
def isSingleDot (seg : List Char) : Bool :=
  [".", "%2e"].contains (String.ofList (seg.map Char.toLower))

/-- The spellings of the segment for the folder above. -/
def isDoubleDot (seg : List Char) : Bool :=
  ["..", ".%2e", "%2e.", "%2e%2e"].contains (String.ofList (seg.map Char.toLower))

/-- Adds path segments to those of the folder reached so far; dot segments move, and one at the
end leaves an empty segment. -/
def addSegments : (folder : List String) → List (List Char) → List String
  | folder, [] => folder
  | folder, seg :: rest =>
    let encoded := Percent.encode Percent.inPath seg
    if isDoubleDot encoded then
      addSegments (folder.dropLast ++ (if rest.isEmpty then [""] else [])) rest
    else if isSingleDot encoded then
      addSegments (folder ++ (if rest.isEmpty then [""] else [])) rest
    else addSegments (folder ++ [String.ofList encoded]) rest

/-- The segments of a path text, a leading slash being optional. -/
def readSegments (web : Bool) (cs : List Char) : List String :=
  let unified := cs.map fun c => if isSlash web c then '/' else c
  let body := match unified with
    | '/' :: r => r
    | r => r
  addSegments [] (splitAll ['/'] body)

/-- The query and the fragment behind a path. -/
def readQueryFragment (web : Bool) (cs : List Char) : Option String × Option String :=
  let inQuery := if web then Percent.inSpecialQuery else Percent.inQuery
  let fragmentOf (r : List Char) := String.ofList (Percent.encode Percent.inFragment r)
  match cs with
  | '?' :: r =>
    let (query, rest) := spanUntil (· == '#') r
    let fragment := match rest with
      | _ :: f => some (fragmentOf f)
      | [] => none
    (some (String.ofList (Percent.encode inQuery query)), fragment)
  | '#' :: r => (none, some (fragmentOf r))
  | _ => (none, none)

/-! ## Whole URLs -/

/-- Assembles a URL behind its authority. -/
def withPath (scheme : String) (authority : Option Authority) (path : Path)
    (rest : List Char) : Url :=
  let (query, fragment) := readQueryFragment (isWebScheme scheme) rest
  ⟨scheme, authority, path, query, fragment⟩

/-- Reads a URL with an authority, from behind its slashes. -/
def readHierarchical? (scheme : String) (cs : List Char) (toAscii : DomainRule := asciiDomain?) :
    Option Url := do
  let web := isWebScheme scheme
  let (authorityChars, rest) := spanUntil (endsAuthority web) cs
  let (authority, left) ← readAuthority? scheme authorityChars rest toAscii
  let (pathChars, rest) := spanUntil endsPath (left ++ rest)
  let names := if pathChars.isEmpty && !web then [] else readSegments web pathChars
  some (withPath scheme (some authority) (.segments names) rest)

/-- Reads a URL of a local file; a host of its own is rare and the local host is none. -/
def readFile? (cs : List Char) (toAscii : DomainRule := asciiDomain?) : Option Url := do
  let slash := isSlash true
  match cs with
  | a :: b :: r =>
    if slash a && slash b then
      let (hostChars, rest) := spanUntil (endsAuthority true) r
      let host ← if hostChars.isEmpty ∨ isDriveLetter hostChars then some none
        else (readWebHost? hostChars toAscii).map some
      let host := if host = some (.domain "localhost") then none else host
      finish host (if isDriveLetter hostChars then r else rest)
    else finish none cs
  | cs => finish none cs
where
  finish (host : Option Host) (cs : List Char) : Option Url :=
    let (pathChars, rest) := spanUntil endsPath cs
    let (query, fragment) := readQueryFragment true rest
    some ⟨"file", some { host }, .segments (readSegments true pathChars), query, fragment⟩
  isDriveLetter : List Char → Bool
    | [d, mark] => d.isAlpha && (mark == ':' || mark == '|')
    | _ => false

/-- Reads a URL of a scheme outside the web. -/
def readOther? (scheme : String) (cs : List Char) (toAscii : DomainRule := asciiDomain?) :
    Option Url :=
  match cs with
  | '/' :: '/' :: r => readHierarchical? scheme r toAscii
  | '/' :: _ =>
    let (pathChars, rest) := spanUntil endsPath cs
    some (withPath scheme none (.segments (readSegments false pathChars)) rest)
  | cs =>
    let (pathChars, rest) := spanUntil endsPath cs
    some (withPath scheme none
      (.rootless (String.ofList (Percent.encode Percent.inControls pathChars))) rest)

def parseChars? (cs : List Char) (toAscii : DomainRule := asciiDomain?) : Option Url := do
  let (schemeChars, rest) ← splitScheme? (cleaned cs)
  let scheme := String.ofList schemeChars
  if isWebScheme scheme then
    readHierarchical? scheme (rest.dropWhile (isSlash true)) toAscii
  else if scheme = "file" then readFile? rest toAscii
  else readOther? scheme rest toAscii

/-- Reads an absolute URL, by a rule for domains. -/
def parse? (s : String) (toAscii : DomainRule := asciiDomain?) : Option Url :=
  parseChars? s.toList toAscii

end Upnp.Url
