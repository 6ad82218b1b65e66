import Upnp.Config.Basic
import Upnp.Text.Split
import Upnp.Text.Utf8

/-
Loading a configuration: finding its file, laying it over the defaults, and overriding single
settings by environment variables. What loading sees of its surroundings is a value.
-/

namespace Upnp.Config

open Upnp.Text Upnp.Yaml

/-- The surroundings in which a configuration is loaded. -/
structure Surroundings where
  /-- The environment variables, in the order in which they are applied. -/
  environment : List (String × String) := []
  home : Option String := none
  hasDirectory : String → Bool := fun _ => false
  file? : String → Option Utf8.Octets := fun _ => none

/-! ## Finding the file -/

/-- The variable that names the directory of the configuration. -/
def directoryVariable : String := "PMONETUPNP_CONFIG"

def directoryName : String := ".pmonetupnp"

def fileName : String := "config.yaml"

/-- The path of a name in a directory. -/
def joinPath (directory name : String) : String :=
  if directory.isEmpty || directory.toList.getLast? == some '/' then directory ++ name
  else directory ++ "/" ++ name

/-- The directory asked for, else the one a variable names, else the first that exists of those
in the working and the home directory. -/
def directory? (s : Surroundings) (asked : String) : Option String :=
  if !asked.isEmpty then some asked
  else
    match s.environment.lookup directoryVariable with
    | some directory => some directory
    | none =>
      if s.hasDirectory directoryName then some directoryName
      else (s.home.map (joinPath · directoryName)).filter s.hasDirectory

/-! ## Overriding by variables -/

/-- What the names of overriding variables start with. -/
def overrideStart : String := "PMONETUPNP_CONFIG__"

/-- The path of keys that a variable overrides, if it is one to do so. -/
def overridePath? (name : String) : Option (List String) :=
  (stripStart? overrideStart name).map (splitText "__")

/-- The value of a variable's text, which is a string unless it is a document. -/
def overrideValue (text : String) : Value :=
  (Yaml.read? text).getD (.string text)

/-- The tree with one variable applied; where the path is closed, nothing changes. -/
def applyOverride (tree : Value) : String × String → Value
  | (name, text) =>
    match overridePath? name with
    | some path => (set (overrideValue text) path tree).toOption.getD tree
    | none => tree

def applyOverrides (environment : List (String × String)) (tree : Value) : Value :=
  environment.foldl applyOverride tree

/-! ## Loading -/

/-- The tree of the file at a path, or the default one if there is no file. -/
def fileTree (s : Surroundings) (path : Option String) : Except ConfigError Value :=
  match path.bind s.file? with
  | none => .ok (lowerKeys standardTree)
  | some octets =>
    match (Utf8.decode octets).toOption.bind Yaml.read? with
    | some v => .ok (overlay v)
    | none => .error .yaml

/-- The configuration in its surroundings, its file in the directory asked for or the first one
found. -/
def load (s : Surroundings) (asked : String) : Except ConfigError Config := do
  let path := (directory? s asked).map (joinPath · fileName)
  let tree ← fileTree s path
  .ok { path, tree := applyOverrides s.environment tree }

end Upnp.Config
