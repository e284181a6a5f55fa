import ApiCommand.Config.Basic
import ApiCommand.Error.Basic
import ApiCommand.Json.Decode
import ApiCommand.Toml.Document

/-!
# Configuration files

A configuration is written in TOML. The file that a user names has to exist; otherwise a file in the
usual directory counts, if there is one, and without it the configuration is empty.
-/

namespace ApiCommand.Config

/-- The fields of a configuration. -/
def fields : List String := ["env_prefix", "catalog", "defaults"]

/-- Reads a configuration from a table. -/
def ofJson? (v : Json) : Option Config := do
  let record ← v.recordOf? fields
  let envPrefix ← Json.optional Json.asString? record "env_prefix"
  let catalog ← Json.optional Json.asString? record "catalog"
  let defaults ← Json.defaulted Json.asObject? [] record "defaults"
  some { envPrefix, catalog, defaults }

/-- Writes a configuration. -/
def toJson (c : Config) : Json :=
  .ofMembers
    [("env_prefix", .optionalString c.envPrefix), ("catalog", .optionalString c.catalog),
      ("defaults", .object c.defaults)]

/-- Reads a configuration as it is written down. -/
def parse? (text : String) : Option Config := (Toml.parse? text).bind ofJson?

/-- A path below a directory. -/
def joinPath (directory name : String) : String :=
  if directory.isEmpty || directory.toList.getLast? = some '/' then directory ++ name
  else directory ++ "/" ++ name

/-- The name of the configuration file. -/
def fileName : String := "config.toml"

/-- The name of the directory for the configuration. -/
def directoryName : String := "relay"

/-- The directory for configurations of all programs. -/
def platformDirectory? (host : Host) : Option String :=
  ((host.getVariable? "XDG_CONFIG_HOME").filter fun path => path.toList.head? = some '/').or
    ((host.nonemptyVariable? "HOME").map fun home => joinPath home ".config")

/-- The directory for the configuration: the one that the environment names, or one below the
directory for configurations of all programs. -/
def directory? (host : Host) : Option String :=
  (host.nonemptyVariable? "RELAY_CONFIG_DIR").or
    ((platformDirectory? host).map fun path => joinPath path directoryName)

/-- The usual place of the configuration file. -/
def defaultPath? (directory : Option String) : Option String :=
  directory.map fun path => joinPath path fileName

/-- Reads the configuration file under a path. -/
def read (host : Host) (path : String) : Except Error Config :=
  match host.textOf path with
  | .error f => .error (.ofFileFault f)
  | .ok text =>
    match parse? text with
    | some c => .ok c
    | none => .error (.fault (.configMalformed path))

/-- The path of the configuration file that the user names on the command line or else in the
environment. -/
def namedPath? (host : Host) (explicit : Option String) : Option String :=
  (explicit.or (host.getVariable? "RELAY_CONFIG")).filter fun path => !path.isEmpty

/-- Loads the configuration. -/
def load (host : Host) (directory explicit : Option String) : Except Error Config :=
  match namedPath? host explicit with
  | some raw =>
    match host.expandPath raw with
    | .error cause => .error (.fault (.unexpandablePath raw cause))
    | .ok path =>
      if host.hasFile path then read host path else .error (.fault (.configFileMissing path))
  | none =>
    match defaultPath? directory with
    | some path => if host.hasFile path then read host path else .ok {}
    | none => .ok {}

end ApiCommand.Config
