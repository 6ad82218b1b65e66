import Upnp.Config.Tree
import Upnp.Decimal.Integer
import Upnp.Text.Blank
import Upnp.Yaml.Document
import Upnp.Yaml.Writer

/-
Configurations: a tree of settings with the file behind it, and the settings of the engine by
name. A setting that the tree lacks, or holds in a form of no use, has its default.
-/

namespace Upnp

open Upnp.Decimal Upnp.Text Upnp.Yaml

/-! ## Settings by name -/

/-- The settings that are natural numbers of 64 bits. -/
inductive NumberSetting where
  | searchMx
  | multicastTtl
  | readTimeoutMs
  | controlPointPortBase
  | controlPointPortRange
  | devicePortBase
  | devicePortRange
  | httpTimeoutSecs
  deriving Repr, DecidableEq

namespace NumberSetting

def path : NumberSetting → List String
  | searchMx => ["ssdp", "search_mx"]
  | multicastTtl => ["ssdp", "multicast_ttl"]
  | readTimeoutMs => ["ssdp", "read_timeout_ms"]
  | controlPointPortBase => ["control_point", "port_base"]
  | controlPointPortRange => ["control_point", "port_range"]
  | devicePortBase => ["device", "port_base"]
  | devicePortRange => ["device", "port_range"]
  | httpTimeoutSecs => ["http", "timeout_secs"]

def standard : NumberSetting → Nat
  | searchMx => 3
  | multicastTtl => 4
  | readTimeoutMs => 250
  | controlPointPortBase => 5004
  | controlPointPortRange => 1024
  | devicePortBase => 6004
  | devicePortRange => 1024
  | httpTimeoutSecs => 10

def name : NumberSetting → String
  | searchMx => "search_mx"
  | multicastTtl => "multicast_ttl"
  | readTimeoutMs => "read_timeout_ms"
  | controlPointPortBase => "control_point_port_base"
  | controlPointPortRange => "control_point_port_range"
  | devicePortBase => "device_port_base"
  | devicePortRange => "device_port_range"
  | httpTimeoutSecs => "http_timeout_secs"

/-- All settings, in the order of the default tree. -/
def all : List NumberSetting :=
  [searchMx, multicastTtl, readTimeoutMs, controlPointPortBase, controlPointPortRange,
    devicePortBase, devicePortRange, httpTimeoutSecs]

/-- The setting of a name. -/
def ofName? (s : String) : Option NumberSetting :=
  all.find? fun n => n.name == s

end NumberSetting

/-- The settings that are texts. -/
inductive TextSetting where
  | productName
  | productVersion
  deriving Repr, DecidableEq

namespace TextSetting

def path : TextSetting → List String
  | productName => ["product", "name"]
  | productVersion => ["product", "version"]

def standard : TextSetting → String
  | productName => "pmonetupnp"
  | productVersion => "0.1.0"

def name : TextSetting → String
  | productName => "product_name"
  | productVersion => "product_version"

def all : List TextSetting := [productName, productVersion]

/-- The setting of a name. -/
def ofName? (s : String) : Option TextSetting :=
  all.find? fun t => t.name == s

end TextSetting

/-! ## Configurations -/

/-- A tree of settings and the path of its file, if it has one. -/
structure Config where
  path : Option String := none
  tree : Value
  deriving Repr

/-- Why a configuration cannot be read, asked, changed or saved. -/
inductive ConfigError where
  /-- The text is no YAML document. -/
  | yaml
  | tree (e : Config.TreeError)
  | noFile
  deriving Repr, DecidableEq

def ConfigError.message : ConfigError → String
  | .yaml => "invalid YAML"
  | .tree e => e.message
  | .noFile => "Configuration has no backing file"

namespace Config

/-- The tree in which every setting has its default. -/
def standardTree : Value :=
  let part (name : String) (entries : Entries) : Value × Value :=
    (.string name, .mapping entries)
  let number (key : String) (s : NumberSetting) : Value × Value :=
    (.string key, .number (.int s.standard))
  let text (key : String) (s : TextSetting) : Value × Value := (.string key, .string s.standard)
  .mapping [
    part "ssdp" [number "search_mx" .searchMx, number "multicast_ttl" .multicastTtl,
      number "read_timeout_ms" .readTimeoutMs],
    part "control_point" [number "port_base" .controlPointPortBase,
      number "port_range" .controlPointPortRange],
    part "device" [number "port_base" .devicePortBase, number "port_range" .devicePortRange],
    part "http" [number "timeout_secs" .httpTimeoutSecs],
    part "product" [text "name" .productName, text "version" .productVersion]]

/-- The default tree with a document laid over it. -/
def overlay (document : Value) : Value :=
  lowerKeys (merge standardTree (lowerKeys document))

/-- The configuration of a text laid over the defaults; a blank text changes nothing. -/
def ofYaml (text : String) : Except ConfigError Config :=
  if (trim text).isEmpty then .ok { tree := lowerKeys standardTree }
  else
    match Yaml.read? text with
    | some v => .ok { tree := overlay v }
    | none => .error .yaml

def getValue (path : List String) (c : Config) : Except ConfigError Value :=
  (get path c.tree).mapError .tree

def setValue (path : List String) (value : Value) (c : Config) : Except ConfigError Config :=
  match set value path c.tree with
  | .ok tree => .ok { c with tree }
  | .error e => .error (.tree e)

/-- The path of the file of a configuration and the text to put there. -/
def saved (c : Config) : Except ConfigError (String × String) :=
  match c.path with
  | some path => .ok (path, Yaml.write c.tree)
  | none => .error .noFile

/-! ## Settings -/

/-- The natural number that a value stands for as a setting. -/
def naturalOf? : Value → Option Nat
  | .number n => n.natural?
  | .string s => (readInt? .unsigned64 (trim s)).map Int.toNat
  | _ => none

/-- The text that a value stands for as a setting. -/
def textOf? : Value → Option String
  | .string s => if s.isEmpty then none else some s
  | .number n => some n.text
  | _ => none

def number (s : NumberSetting) (c : Config) : Nat :=
  ((get s.path c.tree).toOption.bind naturalOf?).getD s.standard

def setNumber (s : NumberSetting) (n : Nat) (c : Config) : Except ConfigError Config :=
  c.setValue s.path (.number (.int n))

def text (s : TextSetting) (c : Config) : String :=
  ((get s.path c.tree).toOption.bind textOf?).getD s.standard

def setText (s : TextSetting) (t : String) (c : Config) : Except ConfigError Config :=
  c.setValue s.path (.string t)

end Config

end Upnp
