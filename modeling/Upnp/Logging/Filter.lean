import Upnp.Decimal.Integer
import Upnp.Text.Blank
import Upnp.Text.Split

/-
Which log messages are shown. A filter is a list of directives, each of which sets how much is
shown of the targets whose names start in a given way; the longest such start decides, and of
equal ones the last.
-/

namespace Upnp.Logging

open Upnp.Decimal Upnp.Text

/-- How grave a message is, the gravest first. -/
inductive Level where
  | error
  | warn
  | info
  | debug
  | trace
  deriving Repr, DecidableEq

namespace Level

def all : List Level := [error, warn, info, debug, trace]

/-- The number of a level, counted from the gravest. -/
def rank : Level → Nat
  | error => 1
  | warn => 2
  | info => 3
  | debug => 4
  | trace => 5

def name : Level → String
  | error => "error"
  | warn => "warn"
  | info => "info"
  | debug => "debug"
  | trace => "trace"

end Level

/-- How many levels are shown: none at zero, all at five. -/
abbrev Verbosity := Nat

/-- The verbosity that a number or the name of a level stands for. -/
def verbosity? (s : String) : Option Verbosity :=
  match readInt? .unsigned64 s with
  | some n => if n ≤ 5 then some n.toNat else none
  | none =>
    if eqIgnoringAsciiCase s "off" then some 0
    else (Level.all.find? fun l => eqIgnoringAsciiCase s l.name).map Level.rank

/-- What is shown of the targets whose names start with a text. -/
structure Directive where
  target : String := ""
  verbosity : Verbosity
  /-- It holds only within a named span. -/
  inSpan : Bool := false
  deriving Repr, DecidableEq

/-! ## Reading -/

def isTargetStart (c : Char) : Bool :=
  c.isAlphanum || c == '-' || c == ':' || c == '_' || 0x80 ≤ c.toNat

/-- The verbosity behind the equals sign, which is full if nothing stands there. -/
def Directive.readVerbosity? (s : String) : Option Verbosity :=
  if s.isEmpty then some 5 else verbosity? s

/-- Reads what follows the target: a span in brackets and a verbosity. -/
def Directive.readSpan? (target after : String) : Option Directive := do
  let (_, rest) ← splitTextOnce? "]" after
  if rest.isEmpty then some ⟨target, 5, true⟩
  else (stripStart? "=" rest).bind fun v => (readVerbosity? v).map fun n => ⟨target, n, true⟩

/-- Reads a directive: a verbosity, a target, or a target and its verbosity. Blanks around it
belong to a bare target and are wrong around anything with an equals sign. -/
def Directive.read? (part : String) : Option Directive :=
  let s := trim part
  match s.toList with
  | [] => none
  | c :: after =>
    if part != s && s.contains '=' then none
    else if c = '[' then readSpan? "" (String.ofList after)
    else if !isTargetStart c then none
    else
      match s.toList.find? fun c => c == '=' || c == '[' with
      | some '=' => do
        let (target, v) ← splitTextOnce? "=" s
        (readVerbosity? v).map fun n => ⟨target, n, false⟩
      | some _ => (splitTextOnce? "[" s).bind fun (target, after) => readSpan? target after
      | none =>
        match verbosity? part with
        | some n => some ⟨"", n, false⟩
        | none => some ⟨part, 5, false⟩

/-- The directives of a filter; a filter without any shows errors. -/
structure Filter where
  directives : List Directive
  deriving Repr, DecidableEq

namespace Filter

def errorsOnly : Filter := ⟨[{ verbosity := Level.error.rank }]⟩

/-- What is shown unless a filter says otherwise. -/
def standard : Filter := ⟨[{ verbosity := Level.info.rank }]⟩

/-- Reads the directives between commas; one that is wrong spoils the filter. -/
def read? (s : String) : Option Filter :=
  let parts := (splitText "," s).filter (!·.isEmpty)
  if parts.isEmpty then some errorsOnly
  else (parts.mapM Directive.read?).map (⟨·⟩)

/-- Reads a filter, or takes the standard one. -/
def ofText (s : String) : Filter :=
  (read? s).getD standard

/-- Of two directives for a target, the second unless the first is for a longer start. -/
def closer (found : Option Directive) (d : Directive) : Option Directive :=
  match found with
  | some e => if d.target.length < e.target.length then some e else some d
  | none => some d

/-- The directive that decides on a target outside all spans. -/
def directive? (f : Filter) (target : String) : Option Directive :=
  (f.directives.filter fun d => !d.inSpan && (stripStart? d.target target).isSome).foldl closer none

def verbosity (f : Filter) (target : String) : Verbosity :=
  (f.directive? target).elim 0 (·.verbosity)

end Filter

/-! ## Loggers -/

/-- Where log messages go: nowhere, or through a filter to the standard error stream. -/
inductive Logger where
  | silent
  | filtered (f : Filter)
  deriving Repr, DecidableEq

namespace Logger

/-- Whether a message is shown while the logger is installed. -/
def shows (logger : Logger) (target : String) (l : Level) : Bool :=
  match logger with
  | silent => false
  | filtered f => l.rank ≤ f.verbosity target

end Logger

end Upnp.Logging
