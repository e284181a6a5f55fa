import ApiCommand.Flag.Resolution
import ApiCommand.Host.Basic
import ApiCommand.Json.Reader

/-!
# Configuration

What a user sets once for all calls: the catalog to use, and values for configs that a command line
does not give. Such a value comes from the environment variable that belongs to the config
(`variableName`) or else from the defaults in the configuration.
-/

namespace ApiCommand

/-- The content of a configuration file. -/
structure Config where
  /-- What the names of environment variables start with. -/
  envPrefix : Option String := none
  /-- The catalog that is used if no other one is named. -/
  catalog : Option String := none
  /-- Values by the name of a config. -/
  defaults : Dict Json := []

namespace Config

/-- What the names of environment variables start with if the configuration does not say. -/
def standardPrefix : String := "RELAY"

/-- What the names of environment variables start with. -/
def variableStart (c : Config) : String :=
  (c.envPrefix.filter fun s => !s.isEmpty).getD standardPrefix

/-- A character of a name in the name of a variable: a capital letter, a digit or an underscore. -/
def variableChar (c : Char) : Char := if c.isAlphanum then c.toUpper else '_'

/-- The name of the environment variable for a config. Names that start with underscores are names
of control knobs and get a word of their own instead. -/
def variableName (start name : String) : String :=
  let own := name.toList.dropWhile (· == '_')
  let joint := if name.toList.head? = some '_' then "_CONTROL_" else "_"
  start ++ joint ++ String.ofList (own.map variableChar)

end Config

/-- The values that an environment and a table of defaults give. The value of a variable is JSON if
it can be read as such and a text otherwise. -/
def layeredSource (host : Host) (start : String) (defaults : Dict Json) : ValueSource := fun name =>
  ((host.getVariable? (Config.variableName start name)).map Json.parseLoose).or
    (Dict.get? defaults name)

/-- The values that an environment and a configuration give. -/
def Config.source (host : Host) (c : Config) : ValueSource :=
  layeredSource host c.variableStart c.defaults

end ApiCommand
